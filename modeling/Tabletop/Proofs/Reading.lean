import Tabletop.Proofs.Grammar

/-!
# Reading against the grammar

`Reading.Step` lists what one token can do to a reading, with the value that the grammar gives the
token. A reading steps exactly as the list says, as long as no number begins with a plus sign.
-/

namespace Tabletop

open ParseError (Cause)

/-! ## Tokens -/

namespace Token

/-- A token that holds a number does not begin with a plus sign. -/
def Unsigned (token : Token) : Prop :=
  token.kind = .integer ∨ token.kind = .dice → Tabletop.Unsigned token.text

theorem readInteger_eq_ok_iff {token : Token} {score : Score} (kind : token.kind = .integer)
    (unsigned : token.Unsigned) : token.readInteger = .ok score ↔ token.IsInteger score := by
  have clear := unsigned (.inl kind)
  unfold readInteger
  constructor
  · intro done
    split at done
    · cases done
    next n numeral =>
      split at done
      next found =>
        cases done
        obtain ⟨denotes, small⟩ := (Numeral.read_eq_ok_iff clear).mp numeral
        exact ⟨kind, n, denotes, small, Score.ofInt?_eq_some_iff.mp found⟩
      · cases done
  · rintro ⟨_, n, denotes, small, value⟩
    rw [show Score.highest = 9223372036854775807 from rfl,
      (Numeral.read_eq_ok_iff clear).mpr ⟨denotes, small⟩]
    simp only [Score.ofInt?_eq_some_iff.mpr value]

theorem readDice_eq_ok_iff {token : Token} {term : Dice} (kind : token.kind = .dice)
    (unsigned : token.Unsigned) : token.readDice = .ok term ↔ token.IsDice term := by
  have exact := @Dice.ofChars_eq_ok_iff token.text term (unsigned (.inr kind))
  unfold readDice
  constructor
  · intro done
    cases read : Dice.ofChars token.text with
    | error fault => rw [read] at done; cases done
    | ok found =>
      rw [read] at done
      cases done
      exact ⟨kind, exact.mp read⟩
  · intro isDice
    rw [exact.mpr isDice.spelled]
    rfl

theorem readFlagWord_eq_ok_iff {token : Token} {word : FlagWord} (kind : token.kind = .flag) :
    token.readFlagWord = .ok word ↔ token.IsWord word := by
  unfold readFlagWord
  constructor
  · intro done
    split at done
    next found =>
      cases done
      exact ⟨kind, FlagWord.ofChars?_eq_some_iff.mp found⟩
    · cases done
  · intro isWord
    rw [FlagWord.ofChars?_eq_some_iff.mpr isWord.spelled]

/-- An integer has no plus sign. -/
theorem IsInteger.unsigned {token : Token} {score : Score} (isInteger : token.IsInteger score) :
    token.Unsigned := by
  obtain ⟨n, denotes, _⟩ := isInteger.numeral
  exact fun _ => denotes.unsigned

/-- A dice term has no plus sign. -/
theorem IsDice.unsigned {token : Token} {term : Dice} (isDice : token.IsDice term) :
    token.Unsigned := by
  obtain ⟨kind, spelled⟩ := isDice
  intro _
  generalize token.text = chars at spelled
  cases spelled with
  | @intro before _ delimiter _ _ number divides _ =>
    cases number with
    | absent =>
      intro plus
      rw [Option.some.inj plus] at divides
      exact absurd divides (by decide)
    | numeral numeral =>
      obtain ⟨head, rest, rfl⟩ := List.exists_cons_of_ne_nil numeral.nonempty
      exact numeral.unsigned

end Token

/-! ## Steps -/

namespace Reading

/-- What one token can do to a reading. -/
inductive Step : Reading → Token → Reading → Prop where
  | integer {level : Level} {outer : List Level} {token : Token} {score : Score}
      (isInteger : token.IsInteger score) :
      Step ⟨.operand, level, outer⟩ token ⟨.closed (.int score), level.push token, outer⟩
  | dice {level : Level} {outer : List Level} {token : Token} {term : Dice}
      (isDice : token.IsDice term) :
      Step ⟨.operand, level, outer⟩ token ⟨.bare (.dice term), level.push token, outer⟩
  | opens {level : Level} {outer : List Level} {token : Token} (kind : token.kind = .leftParen) :
      Step ⟨.operand, level, outer⟩ token ⟨.operand, .empty, level.push token :: outer⟩
  | word {level : Level} {outer : List Level} {token : Token} {target : Expr} {word : FlagWord}
      (isWord : token.IsWord word) :
      Step ⟨.bare target, level, outer⟩ token ⟨.flagged target word, level.push token, outer⟩
  | countOpens {level : Level} {outer : List Level} {token : Token} {target : Expr}
      {word : FlagWord} (kind : token.kind = .leftParen)
      (takesCount : word.kind.TakesCount) :
      Step ⟨.flagged target word, level, outer⟩ token
        ⟨.count target word, level.push token, outer⟩
  | count {level : Level} {outer : List Level} {token : Token} {target : Expr} {word : FlagWord}
      {count : Score} (isCount : token.IsInteger count) :
      Step ⟨.count target word, level, outer⟩ token
        ⟨.counted target word count, level.push token, outer⟩
  | countCloses {level : Level} {outer : List Level} {token : Token} {target : Expr}
      {word : FlagWord} {count : Score} (kind : token.kind = .rightParen) :
      Step ⟨.counted target word count, level, outer⟩ token
        ⟨.closed (.flagged target ⟨word, some count⟩), level.push token, outer⟩
  | closes {slot : Slot} {value : Expr} {level around : Level} {outer : List Level}
      {token : Token} (complete : slot.value? = some value) (kind : token.kind = .rightParen) :
      Step ⟨slot, level, around :: outer⟩ token
        ⟨.bare (.group level.text (level.join value)),
          ⟨around.pending, token :: (level.tokens ++ around.tokens)⟩, outer⟩
  | sign {slot : Slot} {value : Expr} {level : Level} {outer : List Level} {token : Token}
      {op : BinaryOp} (complete : slot.value? = some value)
      (isSign : token.kind.Signs op) :
      Step ⟨slot, level, outer⟩ token
        ⟨.operand, ⟨some (level.join value, op), token :: level.tokens⟩, outer⟩

/-- What follows a complete operand is a parenthesis that ends the group or an operator. -/
theorem step_of_stepAfter {slot : Slot} {level : Level} {outer : List Level} {token : Token}
    {value : Expr} {next : Reading} (complete : slot.value? = some value)
    (done : stepAfter ⟨slot, level, outer⟩ token value = .ok next) :
    Step ⟨slot, level, outer⟩ token next := by
  unfold stepAfter at done
  split at done
  · cases done
  next kind =>
    cases outer with
    | nil => cases done
    | cons around outer =>
      cases done
      exact .closes complete kind
  next kind _ _ =>
    split at done
    next isSign =>
      cases done
      exact .sign complete (TokenKind.binaryOp?_eq_some_iff.mp isSign)
    · cases done

/-- Every step of a reading is one of the list. -/
theorem Step.of_step {reading next : Reading} {token : Token} (unsigned : token.Unsigned)
    (done : reading.step token = .ok next) : Step reading token next := by
  obtain ⟨slot, level, outer⟩ := reading
  unfold step at done
  split at done
  next slotEq kind =>
    cases slotEq
    cases read : token.readInteger with
    | error cause => rw [read] at done; cases done
    | ok score =>
      rw [read] at done
      cases done
      exact .integer ((Token.readInteger_eq_ok_iff kind unsigned).mp read)
  next slotEq kind =>
    cases slotEq
    cases read : token.readDice with
    | error cause => rw [read] at done; cases done
    | ok term =>
      rw [read] at done
      cases done
      exact .dice ((Token.readDice_eq_ok_iff kind unsigned).mp read)
  next slotEq kind =>
    cases slotEq
    cases done
    exact .opens kind
  next target slotEq kind =>
    cases slotEq
    cases read : token.readFlagWord with
    | error cause => rw [read] at done; cases done
    | ok word =>
      rw [read] at done
      cases done
      exact .word ((Token.readFlagWord_eq_ok_iff kind).mp read)
  next target word slotEq kind =>
    cases slotEq
    split at done
    next takesCount =>
      cases done
      exact .countOpens kind (FlagKind.isCounted_iff.mp takesCount)
    · cases done
  next target word slotEq kind =>
    cases slotEq
    cases read : token.readInteger with
    | error cause => rw [read] at done; cases done
    | ok count =>
      rw [read] at done
      cases done
      exact .count ((Token.readInteger_eq_ok_iff kind unsigned).mp read)
  next target word count slotEq kind =>
    cases slotEq
    cases done
    exact .countCloses kind
  next =>
    split at done
    next value complete => exact step_of_stepAfter complete done
    · unfold Token.unexpected at done
      cases done

/-- A complete operand does not take a token unless it is a flag or the parenthesis of a count. -/
theorem step_of_complete {slot : Slot} {level : Level} {outer : List Level} {token : Token}
    {value : Expr} (complete : slot.value? = some value) (noFlag : token.kind ≠ .flag)
    (noParen : token.kind ≠ .leftParen) :
    step ⟨slot, level, outer⟩ token = stepAfter ⟨slot, level, outer⟩ token value := by
  unfold step
  split
  next slotEq _ => cases slotEq; cases complete
  next slotEq _ => cases slotEq; cases complete
  next slotEq _ => cases slotEq; cases complete
  next kind => exact absurd kind noFlag
  next kind => exact absurd kind noParen
  next slotEq _ => cases slotEq; cases complete
  next slotEq _ => cases slotEq; cases complete
  next => simp only [complete]

/-- Everything in the list is a step of the reading. -/
theorem Step.step_eq {reading next : Reading} {token : Token} (step : Step reading token next) :
    reading.step token = .ok next := by
  cases step with
  | integer isInteger =>
    simp only [Reading.step, isInteger.kind_eq,
      (Token.readInteger_eq_ok_iff isInteger.kind_eq isInteger.unsigned).mpr isInteger]
    rfl
  | dice isDice =>
    simp only [Reading.step, isDice.kind_eq,
      (Token.readDice_eq_ok_iff isDice.kind_eq isDice.unsigned).mpr isDice]
    rfl
  | opens kind => simp only [Reading.step, kind, openGroup]
  | word isWord =>
    simp only [Reading.step, isWord.kind_eq,
      (Token.readFlagWord_eq_ok_iff isWord.kind_eq).mpr isWord]
    rfl
  | countOpens kind takesCount =>
    simp only [Reading.step, kind, FlagKind.isCounted_iff.mpr takesCount, if_true]
    rfl
  | count isCount =>
    simp only [Reading.step, isCount.kind_eq,
      (Token.readInteger_eq_ok_iff isCount.kind_eq isCount.unsigned).mpr isCount]
    rfl
  | countCloses kind =>
    simp only [Reading.step, kind]
    rfl
  | @closes slot value level around outer token complete kind =>
    rw [step_of_complete complete (by rw [kind]; decide) (by rw [kind]; decide)]
    simp only [stepAfter, kind]
    rfl
  | @sign slot value level outer token op complete isSign =>
    have noFlag : token.kind ≠ .flag := by
      intro kind
      rw [kind] at isSign
      cases isSign
    have noParen : token.kind ≠ .leftParen := by
      intro kind
      rw [kind] at isSign
      cases isSign
    rw [step_of_complete complete noFlag noParen]
    unfold stepAfter
    split
    next kind => exact absurd kind noFlag
    next kind => rw [kind] at isSign; cases isSign
    next =>
      rw [TokenKind.binaryOp?_eq_some_iff.mpr isSign]
      rfl

end Reading

end Tabletop
