import Tabletop.Fragment
import Tabletop.Proofs.Parse

/-!
# Readers of fragments

A reader takes tokens from a cursor. Where it succeeds, the tokens it has taken are spelled as the
grammar has it, and every such spelling is read. A fragment is the whole of its text, so it is read
exactly if the tokens of the text are its spelling.
-/

namespace Tabletop.Fragment

open ParseError (Cause)

/-- Between two states of a reading these tokens are taken. -/
structure Cursor.Passes (cursor : Cursor) (tokens : List Token) (after : Cursor) : Prop where
  rest_eq : cursor.rest = tokens ++ after.rest
  passed_eq : after.passed = cursor.passed + tokens.length

variable {α β : Type} {cursor between after : Cursor} {value : α}

namespace Cursor.Passes

variable {tokens more : List Token}

theorem refl (cursor : Cursor) : cursor.Passes [] cursor :=
  ⟨rfl, rfl⟩

theorem trans (first : cursor.Passes tokens between) (second : between.Passes more after) :
    cursor.Passes (tokens ++ more) after where
  rest_eq := by rw [first.rest_eq, second.rest_eq, List.append_assoc]
  passed_eq := by rw [second.passed_eq, first.passed_eq, List.length_append, Nat.add_assoc]

theorem unsigned (passes : cursor.Passes tokens after)
    (unsigned : ∀ token ∈ cursor.rest, token.Unsigned) : ∀ token ∈ after.rest, token.Unsigned :=
  fun token member => unsigned token (passes.rest_eq ▸ List.mem_append_right tokens member)

/-- The first of the tokens lead to a state from which the others are taken. -/
theorem of_append (passes : cursor.Passes (tokens ++ more) after) :
    ∃ between, cursor.Passes tokens between ∧ between.Passes more after := by
  refine ⟨⟨cursor.passed + tokens.length, more ++ after.rest⟩, ⟨?_, rfl⟩, rfl, ?_⟩
  · rw [passes.rest_eq, List.append_assoc]
  · rw [passes.passed_eq, List.length_append, Nat.add_assoc]

theorem of_cons {token : Token} (passes : cursor.Passes (token :: tokens) after) :
    ∃ between, cursor.Passes [token] between ∧ between.Passes tokens after :=
  @of_append cursor after [token] tokens passes

/-- Where nothing is taken, nothing changes. -/
theorem eq_of_nil (passes : cursor.Passes [] after) : cursor = after := by
  obtain ⟨passed, rest⟩ := cursor
  obtain ⟨rfl, passed_eq⟩ := passes
  rw [← show after.passed = passed from passed_eq]
  rfl

end Cursor.Passes

open Cursor (Passes)

/-! ## Steps of a reader -/

theorem bind_eq_ok_iff {first : Reader α} {next : α → Reader β} {result : β} :
    (first >>= next) cursor = .ok (result, after) ↔
      ∃ middle between, first cursor = .ok (middle, between) ∧
        next middle between = .ok (result, after) := by
  change (first cursor >>= fun pair => next pair.1 pair.2) = _ ↔ _
  cases first cursor with
  | error failure =>
    refine iff_of_false nofun ?_
    rintro ⟨_, _, same, _⟩
    cases same
  | ok pair =>
    constructor
    · intro done
      exact ⟨pair.1, pair.2, rfl, done⟩
    · rintro ⟨_, _, same, done⟩
      cases same
      exact done

theorem pure_eq_ok_iff {other : α} :
    (pure value : Reader α) cursor = .ok (other, after) ↔ value = other ∧ cursor = after := by
  constructor
  · intro done
    cases done
    exact ⟨rfl, rfl⟩
  · rintro ⟨rfl, rfl⟩
    rfl

theorem peek?_eq_ok_iff {next : Option TokenKind} :
    peek? cursor = .ok (next, after) ↔ cursor.rest.head?.map Token.kind = next ∧ cursor = after :=
  pure_eq_ok_iff

theorem take_eq_ok_iff {expected : List TokenKind} {token : Token} :
    take expected cursor = .ok (token, after) ↔
      token.kind ∈ expected ∧ cursor.Passes [token] after := by
  obtain ⟨passed, rest⟩ := cursor
  unfold take
  cases rest with
  | nil => exact iff_of_false nofun fun taken => nomatch taken.2.rest_eq
  | cons next rest =>
    dsimp only
    by_cases isExpected : next.kind ∈ expected
    · rw [if_pos isExpected]
      constructor
      · intro done
        cases done
        exact ⟨isExpected, rfl, rfl⟩
      · rintro ⟨_, rest_eq, passed_eq⟩
        obtain ⟨rfl, rfl⟩ := List.cons.inj rest_eq
        rw [← show after.passed = passed + 1 from passed_eq]
        rfl
    · rw [if_neg isExpected]
      refine iff_of_false nofun fun taken => ?_
      obtain ⟨kind, rest_eq, _⟩ := taken
      cases rest_eq
      exact isExpected kind

theorem judge_eq_ok_iff {result : Except Cause α} :
    judge result cursor = .ok (value, after) ↔ result = .ok value ∧ cursor = after := by
  unfold judge
  cases result with
  | ok found =>
    constructor
    · intro done
      cases done
      exact ⟨rfl, rfl⟩
    · rintro ⟨same, rfl⟩
      cases same
      rfl
  | error cause => exact iff_of_false nofun fun judged => nomatch judged.1

/-! ## Single tokens -/

/-- A reader of a single token of some kinds judges it as the grammar does. -/
theorem single_eq_ok_iff {expected : List TokenKind} {read : Token → Except Cause α}
    {Is : Token → α → Prop} (kinds : ∀ token, Is token value → token.kind ∈ expected)
    (reads : ∀ token, token.Unsigned → token.kind ∈ expected →
      (read token = .ok value ↔ Is token value))
    (unsigned : ∀ token ∈ cursor.rest, token.Unsigned) :
    (do judge (read (← take expected)) : Reader α) cursor = .ok (value, after) ↔
      ∃ token, Is token value ∧ cursor.Passes [token] after := by
  rw [bind_eq_ok_iff]
  simp only [take_eq_ok_iff, judge_eq_ok_iff]
  constructor
  · rintro ⟨token, _, ⟨kind, passes⟩, done, rfl⟩
    have isUnsigned := unsigned token (passes.rest_eq ▸ List.mem_cons_self)
    exact ⟨token, (reads token isUnsigned kind).mp done, passes⟩
  · rintro ⟨token, isValue, passes⟩
    have isUnsigned := unsigned token (passes.rest_eq ▸ List.mem_cons_self)
    have kind := kinds token isValue
    exact ⟨token, after, ⟨kind, passes⟩, (reads token isUnsigned kind).mpr isValue, rfl⟩

theorem integer_eq_ok_iff {score : Score} (unsigned : ∀ token ∈ cursor.rest, token.Unsigned) :
    integer cursor = .ok (score, after) ↔
      ∃ token, token.IsInteger score ∧ cursor.Passes [token] after :=
  single_eq_ok_iff (fun _ isInteger => List.mem_singleton.mpr isInteger.kind_eq)
    (fun _ isUnsigned kind => Token.readInteger_eq_ok_iff (List.mem_singleton.mp kind) isUnsigned)
    unsigned

theorem dice_eq_ok_iff {term : Dice} (unsigned : ∀ token ∈ cursor.rest, token.Unsigned) :
    dice cursor = .ok (term, after) ↔
      ∃ token, token.IsDice term ∧ cursor.Passes [token] after :=
  single_eq_ok_iff (fun _ isDice => List.mem_singleton.mpr isDice.kind_eq)
    (fun _ isUnsigned kind => Token.readDice_eq_ok_iff (List.mem_singleton.mp kind) isUnsigned)
    unsigned

/-- The token is the sides of a die without a dice term around them. -/
structure IsSides (token : Token) (sides : Sides) : Prop where
  kind_mem : token.kind ∈ [TokenKind.integer, .fate]
  spelled : Sides.Spelled token.text sides

theorem sides_eq_ok_iff {faces : Sides} (unsigned : ∀ token ∈ cursor.rest, token.Unsigned) :
    sides cursor = .ok (faces, after) ↔
      ∃ token, IsSides token faces ∧ cursor.Passes [token] after := by
  refine single_eq_ok_iff (fun _ isSides => isSides.kind_mem) (fun token _ kind => ?_) unsigned
  have reads : (Sides.ofChars token.text).mapError (fun error => .badDice (.sides error)) =
      (.ok faces : Except Cause Sides) ↔ Sides.Spelled token.text faces := by
    rw [← Sides.ofChars_eq_ok_iff]
    cases Sides.ofChars token.text <;> simp [Except.mapError]
  exact reads.trans ⟨fun spelled => ⟨kind, spelled⟩, IsSides.spelled⟩

theorem mem_operators_of_signs {kind : TokenKind} {op : BinaryOp} (isSign : kind.Signs op) :
    kind ∈ TokenKind.operators := by
  cases isSign <;> decide

theorem operator_eq_ok_iff {op : BinaryOp} :
    operator cursor = .ok (op, after) ↔
      ∃ token, token.kind.Signs op ∧ cursor.Passes [token] after := by
  unfold operator
  rw [bind_eq_ok_iff]
  simp only [take_eq_ok_iff, judge_eq_ok_iff]
  constructor
  · rintro ⟨token, _, ⟨_, passes⟩, done, rfl⟩
    split at done
    next isSign =>
      cases done
      exact ⟨token, TokenKind.binaryOp?_eq_some_iff.mp isSign, passes⟩
    · cases done
  · rintro ⟨token, isSign, passes⟩
    refine ⟨token, after, ⟨mem_operators_of_signs isSign, passes⟩, ?_, rfl⟩
    rw [TokenKind.binaryOp?_eq_some_iff.mpr isSign]

/-! ## Flags -/

/-- A flag that is read is spelled by the tokens that are taken. -/
theorem exists_spelled_of_flag {found : Flag} (unsigned : ∀ token ∈ cursor.rest, token.Unsigned)
    (done : flag cursor = .ok (found, after)) :
    ∃ tokens, Flag.Spelled tokens found ∧ cursor.Passes tokens after := by
  unfold flag at done
  obtain ⟨token, between, taken, done⟩ := bind_eq_ok_iff.mp done
  obtain ⟨kind, wordPasses⟩ := take_eq_ok_iff.mp taken
  obtain ⟨word, _, judged, done⟩ := bind_eq_ok_iff.mp done
  obtain ⟨read, rfl⟩ := judge_eq_ok_iff.mp judged
  have isWord := (Token.readFlagWord_eq_ok_iff (List.mem_singleton.mp kind)).mp read
  obtain ⟨next, _, peeked, done⟩ := bind_eq_ok_iff.mp done
  obtain ⟨_, rfl⟩ := peek?_eq_ok_iff.mp peeked
  split at done
  · obtain ⟨rfl, rfl⟩ := pure_eq_ok_iff.mp done
    exact ⟨[token], .plain isWord, wordPasses⟩
  obtain ⟨left, opened, taken, done⟩ := bind_eq_ok_iff.mp done
  obtain ⟨opens, leftPasses⟩ := take_eq_ok_iff.mp taken
  dsimp only at done
  split at done
  next =>
    obtain ⟨_, _, judged, _⟩ := bind_eq_ok_iff.mp done
    cases judge_eq_ok_iff.mp judged |>.1
  next takesCount =>
    have opened := wordPasses.trans leftPasses
    obtain ⟨count, counted, numberRead, done⟩ := bind_eq_ok_iff.mp done
    obtain ⟨number, isCount, numberPasses⟩ :=
      (integer_eq_ok_iff (opened.unsigned unsigned)).mp numberRead
    obtain ⟨right, _, taken, done⟩ := bind_eq_ok_iff.mp done
    obtain ⟨closes, rightPasses⟩ := take_eq_ok_iff.mp taken
    obtain ⟨rfl, rfl⟩ := pure_eq_ok_iff.mp done
    have takes : word.kind.TakesCount := FlagKind.isCounted_iff.mp (by simpa using takesCount)
    exact ⟨_, .counted isWord takes (List.mem_singleton.mp opens) isCount
      (List.mem_singleton.mp closes), (opened.trans numberPasses).trans rightPasses⟩

/-- A flag is read from its spelling, unless a parenthesis follows that could begin a count. -/
theorem flag_of_spelled {found : Flag} {tokens : List Token} (spelled : Flag.Spelled tokens found)
    (passes : cursor.Passes tokens after)
    (unsigned : ∀ token ∈ cursor.rest, token.Unsigned)
    (next : after.rest.head?.map Token.kind ≠ some .leftParen) :
    flag cursor = .ok (found, after) := by
  unfold flag
  cases spelled with
  | @plain token word isWord =>
    refine bind_eq_ok_iff.mpr ⟨token, after, ?_, ?_⟩
    · exact take_eq_ok_iff.mpr ⟨List.mem_singleton.mpr isWord.kind_eq, passes⟩
    refine bind_eq_ok_iff.mpr ⟨word, after, ?_, ?_⟩
    · exact judge_eq_ok_iff.mpr ⟨(Token.readFlagWord_eq_ok_iff isWord.kind_eq).mpr isWord, rfl⟩
    refine bind_eq_ok_iff.mpr ⟨_, after, peek?_eq_ok_iff.mpr ⟨rfl, rfl⟩, ?_⟩
    rw [if_pos next]
    rfl
  | @counted token left number right word count isWord takesCount opens isCount closes =>
    obtain ⟨named, wordPasses, passes⟩ := passes.of_cons
    obtain ⟨opened, leftPasses, passes⟩ := passes.of_cons
    obtain ⟨counted, numberPasses, rightPasses⟩ := passes.of_cons
    refine bind_eq_ok_iff.mpr ⟨token, named, ?_, ?_⟩
    · exact take_eq_ok_iff.mpr ⟨List.mem_singleton.mpr isWord.kind_eq, wordPasses⟩
    refine bind_eq_ok_iff.mpr ⟨word, named, ?_, ?_⟩
    · exact judge_eq_ok_iff.mpr ⟨(Token.readFlagWord_eq_ok_iff isWord.kind_eq).mpr isWord, rfl⟩
    refine bind_eq_ok_iff.mpr ⟨some .leftParen, named, ?_, ?_⟩
    · exact peek?_eq_ok_iff.mpr ⟨by rw [leftPasses.rest_eq]; exact congrArg some opens, rfl⟩
    rw [if_neg (by decide)]
    refine bind_eq_ok_iff.mpr ⟨left, opened, ?_, ?_⟩
    · exact take_eq_ok_iff.mpr ⟨List.mem_singleton.mpr opens, leftPasses⟩
    rw [FlagKind.isCounted_iff.mpr takesCount]
    have toLeft := wordPasses.trans leftPasses
    refine bind_eq_ok_iff.mpr ⟨count, counted, ?_, ?_⟩
    · exact (integer_eq_ok_iff (toLeft.unsigned unsigned)).mpr ⟨number, isCount, numberPasses⟩
    refine bind_eq_ok_iff.mpr ⟨right, after, ?_, rfl⟩
    exact take_eq_ok_iff.mpr ⟨List.mem_singleton.mpr closes, rightPasses⟩

/-! ## Whole texts -/

theorem ofTokens_eq_ok_iff {reader : Reader α} {tokens : List Token} :
    ofTokens reader tokens = .ok value ↔
      ∃ after, reader ⟨0, tokens⟩ = .ok (value, after) ∧ after.rest = [] := by
  unfold ofTokens
  cases reader ⟨0, tokens⟩ with
  | error failure => exact iff_of_false nofun fun done => nomatch done
  | ok pair =>
    obtain ⟨found, passed, rest⟩ := pair
    cases rest with
    | nil =>
      constructor
      · intro done
        cases done
        exact ⟨_, rfl, rfl⟩
      · rintro ⟨_, same, _⟩
        cases same
        rfl
    | cons token rest =>
      refine iff_of_false nofun ?_
      rintro ⟨_, same, none⟩
      cases same
      cases none

/-- A text is a fragment exactly if its tokens are what the reader takes where nothing follows. -/
theorem parse_eq_ok_iff {reader : Reader α} {Is : List Token → α → Prop} {text : String}
    (spec : ∀ cursor after, (∀ token ∈ cursor.rest, token.Unsigned) → after.rest = [] →
      (reader cursor = .ok (value, after) ↔
        ∃ tokens, Is tokens value ∧ cursor.Passes tokens after)) :
    parse reader text = .ok value ↔ Is (Token.scan text.toList) value := by
  have unsigned := @Token.unsigned_of_mem_scan text.toList
  unfold parse
  rw [Token.readAll_eq_ok_iff, ofTokens_eq_ok_iff]
  constructor
  · rintro ⟨after, done, ended⟩
    obtain ⟨tokens, isValue, rest_eq, _⟩ := (spec _ after unsigned ended).mp done
    have whole : Token.scan text.toList = tokens := by rw [← tokens.append_nil, ← ended, ← rest_eq]
    exact whole ▸ isValue
  · intro isValue
    have passes : Cursor.Passes ⟨0, Token.scan text.toList⟩ (Token.scan text.toList)
        ⟨(Token.scan text.toList).length, []⟩ :=
      ⟨(List.append_nil _).symm, (Nat.zero_add _).symm⟩
    exact ⟨_, (spec _ _ unsigned rfl).mpr ⟨_, isValue, passes⟩, rfl⟩

/-- A text that is read as one token has no other. -/
theorem parse_single_eq_ok_iff {reader : Reader α} {Is : Token → α → Prop} {text : String}
    (spec : ∀ cursor after, (∀ token ∈ cursor.rest, token.Unsigned) →
      (reader cursor = .ok (value, after) ↔
        ∃ token, Is token value ∧ cursor.Passes [token] after)) :
    parse reader text = .ok value ↔
      ∃ token, Token.scan text.toList = [token] ∧ Is token value := by
  have whole := @parse_eq_ok_iff _ value reader
    (fun tokens found => ∃ token, tokens = [token] ∧ Is token found) text
  refine whole fun cursor after unsigned _ => ?_
  rw [spec cursor after unsigned]
  constructor
  · rintro ⟨token, isValue, passes⟩
    exact ⟨[token], ⟨token, rfl, isValue⟩, passes⟩
  · rintro ⟨_, ⟨token, rfl, isValue⟩, passes⟩
    exact ⟨token, isValue, passes⟩

theorem parse_integer_eq_ok_iff {text : String} {score : Score} :
    parse integer text = .ok score ↔
      ∃ token, Token.scan text.toList = [token] ∧ token.IsInteger score :=
  parse_single_eq_ok_iff fun _ _ => integer_eq_ok_iff

theorem parse_dice_eq_ok_iff {text : String} {term : Dice} :
    parse dice text = .ok term ↔ ∃ token, Token.scan text.toList = [token] ∧ token.IsDice term :=
  parse_single_eq_ok_iff fun _ _ => dice_eq_ok_iff

theorem parse_sides_eq_ok_iff {text : String} {faces : Sides} :
    parse sides text = .ok faces ↔
      ∃ token, Token.scan text.toList = [token] ∧ IsSides token faces :=
  parse_single_eq_ok_iff fun _ _ => sides_eq_ok_iff

theorem parse_operator_eq_ok_iff {text : String} {op : BinaryOp} :
    parse operator text = .ok op ↔
      ∃ token, Token.scan text.toList = [token] ∧ token.kind.Signs op :=
  @parse_single_eq_ok_iff _ op operator (fun token op => token.kind.Signs op) text
    fun _ _ _ => operator_eq_ok_iff

theorem parse_flag_eq_ok_iff {text : String} {found : Flag} :
    parse flag text = .ok found ↔ Flag.Spelled (Token.scan text.toList) found := by
  refine parse_eq_ok_iff fun cursor after unsigned ended => ⟨exists_spelled_of_flag unsigned, ?_⟩
  rintro ⟨tokens, spelled, passes⟩
  have noParen : after.rest.head?.map Token.kind ≠ some .leftParen := by
    rw [ended]
    exact nofun
  exact flag_of_spelled spelled passes unsigned noParen

end Tabletop.Fragment
