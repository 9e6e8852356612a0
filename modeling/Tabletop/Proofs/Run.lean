import Tabletop.Proofs.Reading

/-!
# Runs of a reading

A run takes tokens one by one until they end or one of them is refused. Whatever a reading has
gathered on the way is derived from the tokens that it has taken, so that an expression which a run
gives has a derivation. Conversely every phrase is read through to its end from where an operand has
to begin, whatever level it stands in.
-/

namespace Tabletop

open ParseError (Cause)
open Phrase (Derives)

namespace Reading

/-- The tokens lead from the first reading to the last. -/
inductive Reads : Reading → List Token → Reading → Prop where
  | refl (reading : Reading) : Reads reading [] reading
  | step {reading middle last : Reading} {token : Token} {tokens : List Token}
      (head : reading.step token = .ok middle) (tail : Reads middle tokens last) :
      Reads reading (token :: tokens) last

namespace Reads

theorem single {reading next : Reading} {token : Token} (step : Step reading token next) :
    Reads reading [token] next :=
  .step step.step_eq (.refl next)

theorem trans {first middle last : Reading} {left right : List Token}
    (head : Reads first left middle) (tail : Reads middle right last) :
    Reads first (left ++ right) last := by
  induction head with
  | refl => exact tail
  | step taken _ ih => exact .step taken (ih tail)

/-- A run passes a reading after every part of its tokens. -/
theorem split {first last : Reading} {left right : List Token}
    (reads : Reads first (left ++ right) last) :
    ∃ middle, Reads first left middle ∧ Reads middle right last := by
  induction left generalizing first with
  | nil => exact ⟨first, .refl first, reads⟩
  | cons token left ih =>
    cases reads with
    | step taken rest =>
      obtain ⟨middle, head, tail⟩ := ih rest
      exact ⟨middle, .step taken head, tail⟩

/-- The tokens decide where a run leads. -/
theorem unique {first last other : Reading} {tokens : List Token}
    (reads : Reads first tokens last) (again : Reads first tokens other) : last = other := by
  induction reads with
  | refl => cases again; rfl
  | step taken _ ih =>
    cases again with
    | step takenToo rest =>
      cases Except.ok.inj (taken.symm.trans takenToo)
      exact ih rest

end Reads

/-- The reading cannot go on: the next token is refused, or the text ends too early. -/
inductive Stuck : Reading → List Token → Cause → Prop where
  | ended {reading : Reading} {cause : Cause} (finish : reading.finish = .error cause) :
      Stuck reading [] cause
  | refused {reading : Reading} {token : Token} {rest : List Token} {cause : Cause}
      (step : reading.step token = .error cause) : Stuck reading (token :: rest) cause

theorem run_eq_ok_iff {reading : Reading} {index : Nat} {tokens : List Token}
    {expression : Expression} :
    reading.run index tokens = .ok expression ↔
      ∃ last, Reads reading tokens last ∧ last.finish = .ok expression := by
  induction tokens generalizing reading index with
  | nil =>
    unfold run
    constructor
    · intro done
      refine ⟨reading, .refl reading, ?_⟩
      cases ending : reading.finish with
      | error cause => rw [ending] at done; cases done
      | ok found => rw [ending] at done; cases done; rfl
    · rintro ⟨last, reads, ending⟩
      cases reads
      rw [ending]
      rfl
  | cons token rest ih =>
    unfold run
    cases taken : reading.step token with
    | error cause =>
      constructor
      · intro done
        cases done
      · rintro ⟨last, reads, _⟩
        cases reads with
        | step head _ => rw [taken] at head; cases head
    | ok next =>
      change next.run (index + 1) rest = _ ↔ _
      rw [ih]
      constructor
      · rintro ⟨last, reads, ending⟩
        exact ⟨last, .step taken reads, ending⟩
      · rintro ⟨last, reads, ending⟩
        cases reads with
        | step head tail =>
          cases Except.ok.inj (taken.symm.trans head)
          exact ⟨last, tail, ending⟩

/-- A run that fails has taken the tokens before its index, and is stuck there. -/
theorem stuck_of_run {reading : Reading} {index : Nat} {tokens : List Token} {failure : Failure}
    (failed : reading.run index tokens = .error failure) :
    ∃ before rest last, tokens = before ++ rest ∧ Reads reading before last ∧
      failure.index = index + before.length ∧ Stuck last rest failure.cause := by
  induction tokens generalizing reading index with
  | nil =>
    refine ⟨[], [], reading, rfl, .refl reading, ?_⟩
    unfold run at failed
    cases ending : reading.finish with
    | error cause =>
      rw [ending] at failed
      cases failed
      exact ⟨rfl, .ended ending⟩
    | ok found => rw [ending] at failed; cases failed
  | cons token rest ih =>
    unfold run at failed
    cases taken : reading.step token with
    | error cause =>
      rw [taken] at failed
      cases failed
      exact ⟨[], token :: rest, reading, rfl, .refl reading, rfl, .refused taken⟩
    | ok next =>
      rw [taken] at failed
      obtain ⟨before, after, last, rfl, reads, position, stuck⟩ := ih failed
      refine ⟨token :: before, after, last, rfl, .step taken reads, ?_, stuck⟩
      rw [position, List.length_cons]
      omega

end Reading

/-! ## What a reading has gathered -/

/-- The tokens are a left operand and its operator, or there are none. -/
inductive Level.Waits : Option (Expr × BinaryOp) → List Token → Prop where
  | none : Waits none []
  | some {tokens : List Token} {left : Expr} {sign : Token} {op : BinaryOp}
      (sequence : Derives .sequence tokens left) (isSign : sign.kind.Signs op) :
      Waits (some (left, op)) (tokens ++ [sign])

/-- With one more operand, what a level has gathered is a sequence. -/
theorem Level.Waits.join {level : Level} {waiting tokens : List Token} {operand : Expr}
    (waits : Level.Waits level.pending waiting) (derives : Derives .operand tokens operand) :
    Derives .sequence (waiting ++ tokens) (level.join operand) := by
  obtain ⟨pending, taken⟩ := level
  cases waits with
  | none => exact derives.single
  | some sequence isSign =>
    rw [List.append_assoc]
    exact sequence.extend isSign derives

/-- The tokens are what the slot has taken of its operand. -/
inductive Slot.Holds : Slot → List Token → Prop where
  | operand : Holds .operand []
  | closed {tokens : List Token} {value : Expr} (derives : Derives .operand tokens value) :
      Holds (.closed value) tokens
  | bare {tokens : List Token} {target : Expr} (derives : Derives .target tokens target) :
      Holds (.bare target) tokens
  | flagged {tokens : List Token} {target : Expr} {token : Token} {word : FlagWord}
      (derives : Derives .target tokens target) (isWord : token.IsWord word) :
      Holds (.flagged target word) (tokens ++ [token])
  | count {tokens : List Token} {target : Expr} {token left : Token} {word : FlagWord}
      (derives : Derives .target tokens target) (isWord : token.IsWord word)
      (takesCount : word.kind.TakesCount) (opens : left.kind = .leftParen) :
      Holds (.count target word) (tokens ++ [token, left])
  | counted {tokens : List Token} {target : Expr} {token left number : Token} {word : FlagWord}
      {count : Score} (derives : Derives .target tokens target) (isWord : token.IsWord word)
      (takesCount : word.kind.TakesCount) (opens : left.kind = .leftParen)
      (isCount : number.IsInteger count) :
      Holds (.counted target word count) (tokens ++ [token, left, number])

/-- A complete operand is derived from what its slot has taken. -/
theorem Slot.Holds.derives {slot : Slot} {tokens : List Token} {value : Expr}
    (holds : Slot.Holds slot tokens) (complete : slot.value? = some value) :
    Derives .operand tokens value := by
  cases holds with
  | operand | count | counted => cases complete
  | closed derives => cases complete; exact derives
  | bare derives => cases complete; exact .bare derives
  | flagged derives isWord => cases complete; exact .flagged derives (.plain isWord)

/-- The tokens before the innermost group: each level around it waits in front of a parenthesis. -/
inductive Level.Around : List Level → List Token → Prop where
  | nil : Around [] []
  | cons {level : Level} {outer : List Level} {waiting before : List Token} {left : Token}
      (waits : Level.Waits level.pending waiting) (opens : left.kind = .leftParen)
      (gathered : level.tokens.reverse = waiting ++ [left]) (around : Around outer before) :
      Around (level :: outer) (before ++ (waiting ++ [left]))

/-- The tokens are all that the reading has taken. -/
inductive Reading.Took : Reading → List Token → Prop where
  | intro {slot : Slot} {level : Level} {outer : List Level} {waiting held before : List Token}
      (waits : Level.Waits level.pending waiting) (holds : Slot.Holds slot held)
      (gathered : level.tokens.reverse = waiting ++ held) (around : Level.Around outer before) :
      Took ⟨slot, level, outer⟩ (before ++ (waiting ++ held))

namespace Reading

/-- Nothing has been taken at the start. -/
theorem start_took : Took start [] := by
  have took : Took ⟨.operand, .empty, []⟩ ([] ++ ([] ++ [])) := .intro .none .operand rfl .nil
  exact took

/-- A token that fills the slot further is taken into the same level. -/
theorem Took.fill {next : Slot} {level : Level} {outer : List Level}
    {waiting held before : List Token} {token : Token} (waits : Level.Waits level.pending waiting)
    (holds : Slot.Holds next (held ++ [token])) (gathered : level.tokens.reverse = waiting ++ held)
    (around : Level.Around outer before) :
    Took ⟨next, level.push token, outer⟩ (before ++ (waiting ++ held) ++ [token]) := by
  have after : (level.push token).tokens.reverse = waiting ++ (held ++ [token]) := by
    rw [← List.append_assoc, ← gathered]
    exact List.reverse_cons
  have took : Took ⟨next, level.push token, outer⟩ (before ++ (waiting ++ (held ++ [token]))) :=
    .intro waits holds after around
  simpa only [List.append_assoc] using took

/-- A step takes its token. -/
theorem Took.step {reading next : Reading} {tokens : List Token} {token : Token}
    (took : Took reading tokens) (step : Step reading token next) :
    Took next (tokens ++ [token]) := by
  cases took with
  | @intro slot level outer waiting held before waits holds gathered around =>
    cases step with
    | integer isInteger =>
      cases holds
      exact .fill waits (.closed (.integer isInteger)) gathered around
    | dice isDice =>
      cases holds
      exact .fill waits (.bare (.dice isDice)) gathered around
    | opens kind =>
      cases holds
      rw [List.append_nil] at gathered ⊢
      have inside : (level.push token).tokens.reverse = waiting ++ [token] := by
        rw [← gathered]
        exact List.reverse_cons
      have took : Took ⟨.operand, .empty, level.push token :: outer⟩
          ((before ++ (waiting ++ [token])) ++ ([] ++ [])) :=
        .intro .none .operand rfl (.cons waits kind inside around)
      simpa only [List.append_nil, List.append_assoc] using took
    | word isWord =>
      cases holds with
      | bare derives => exact .fill waits (.flagged derives isWord) gathered around
    | countOpens kind takesCount =>
      cases holds with
      | @flagged target _ flag _ derives isWord =>
        refine .fill waits ?_ gathered around
        rw [List.append_assoc]
        exact .count derives isWord takesCount kind
    | count isCount =>
      cases holds with
      | count derives isWord takesCount opens =>
        refine .fill waits ?_ gathered around
        rw [List.append_assoc]
        exact .counted derives isWord takesCount opens isCount
    | countCloses kind =>
      cases holds with
      | counted derives isWord takesCount opens isCount =>
        refine .fill waits (.closed ?_) gathered around
        rw [List.append_assoc]
        exact .flagged derives (.counted isWord takesCount opens isCount kind)
    | @closes _ value _ outside outer _ complete kind =>
      cases around with
      | @cons _ _ waitingOutside beforeOutside left waitsOutside opens gatheredOutside around =>
        have inner := waits.join (holds.derives complete)
        have text : level.text = String.ofList (Token.join (waiting ++ held)) := by
          rw [← gathered]
          rfl
        have target : Derives .target (left :: ((waiting ++ held) ++ [token]))
            (.group level.text (level.join value)) := by
          rw [text]
          exact .group opens inner kind
        have after : (token :: (level.tokens ++ outside.tokens)).reverse =
            waitingOutside ++ (left :: ((waiting ++ held) ++ [token])) := by
          rw [List.reverse_cons, List.reverse_append, gathered, gatheredOutside]
          simp only [List.append_assoc, List.cons_append, List.nil_append]
        have took : Took ⟨.bare (.group level.text (level.join value)),
            ⟨outside.pending, token :: (level.tokens ++ outside.tokens)⟩, outer⟩
            (beforeOutside ++ (waitingOutside ++ (left :: ((waiting ++ held) ++ [token])))) :=
          .intro waitsOutside (.bare target) after around
        simpa only [List.append_assoc, List.cons_append, List.nil_append] using took
    | sign complete isSign =>
      have sequence := waits.join (holds.derives complete)
      have after : (token :: level.tokens).reverse = ((waiting ++ held) ++ [token]) ++ [] := by
        rw [List.reverse_cons, gathered, List.append_nil]
      have took : Took ⟨.operand, ⟨some (level.join _, _), token :: level.tokens⟩, outer⟩
          (before ++ (((waiting ++ held) ++ [token]) ++ [])) :=
        .intro (.some sequence isSign) .operand after around
      simpa only [List.append_assoc, List.append_nil] using took

/-- A run takes its tokens. -/
theorem Took.reads {reading last : Reading} {tokens more : List Token}
    (took : Took reading tokens) (unsigned : ∀ token ∈ more, token.Unsigned)
    (reads : Reads reading more last) : Took last (tokens ++ more) := by
  induction reads generalizing tokens with
  | refl =>
    rw [List.append_nil]
    exact took
  | @step _ _ _ token rest head _ ih =>
    have step := Step.of_step (unsigned token List.mem_cons_self) head
    have whole := ih (took.step step) fun other member =>
      unsigned other (List.mem_cons_of_mem token member)
    rw [List.append_assoc] at whole
    exact whole

/-- An expression that a reading gives at the end is derived from all that was taken. -/
theorem Took.finish {reading : Reading} {tokens : List Token} {expression : Expression}
    (took : Took reading tokens) (done : reading.finish = .ok expression) :
    Derives .sequence tokens expression.root ∧
      expression.text = String.ofList (Token.join tokens) := by
  cases took with
  | @intro slot level outer waiting held before waits holds gathered around =>
    unfold Reading.finish at done
    split at done
    next value complete outerEq =>
      cases outerEq
      cases around
      cases done
      refine ⟨waits.join (holds.derives complete), ?_⟩
      rw [List.nil_append, ← gathered]
      rfl
    · cases done

end Reading

/-! ## Phrases are read through -/

/-- The level after more of its tokens. -/
def Level.pushAll (level : Level) (tokens : List Token) : Level :=
  { level with tokens := tokens.reverse ++ level.tokens }

namespace Phrase

open Reading (Reads)

/-- The tokens of the phrase are read from where an operand has to begin, and its tree is then
complete. A sequence begins a level, so that nothing waits on its left. -/
def Read : Phrase → List Token → Expr → Prop
  | .target, tokens, tree => ∀ level outer,
      Reads ⟨.operand, level, outer⟩ tokens ⟨.bare tree, level.pushAll tokens, outer⟩
  | .operand, tokens, tree => ∀ level outer, ∃ slot, slot.value? = some tree ∧
      Reads ⟨.operand, level, outer⟩ tokens ⟨slot, level.pushAll tokens, outer⟩
  | .sequence, tokens, tree => ∀ outer, ∃ slot value level, slot.value? = some value ∧
      level.join value = tree ∧ level.tokens = tokens.reverse ∧
      Reads ⟨.operand, .empty, outer⟩ tokens ⟨slot, level, outer⟩

/-- The flag of a target is read behind it. -/
theorem read_flag {suffix : List Token} {flag : Flag} (spelled : Flag.Spelled suffix flag)
    (target : Expr) (level : Level) (outer : List Level) :
    ∃ slot, slot.value? = some (.flagged target flag) ∧
      Reads ⟨.bare target, level, outer⟩ suffix ⟨slot, level.pushAll suffix, outer⟩ := by
  cases spelled with
  | @plain token word isWord => exact ⟨.flagged target word, rfl, .single (.word isWord)⟩
  | @counted token left number right word count isWord takesCount opens isCount closes =>
    refine ⟨.closed (.flagged target ⟨word, some count⟩), rfl, ?_⟩
    have wordRead : Reads ⟨.bare target, level, outer⟩ [token] _ := .single (.word isWord)
    have opened := wordRead.trans (.single (.countOpens opens takesCount))
    have counted := opened.trans (.single (.count isCount))
    exact counted.trans (.single (.countCloses closes))

/-- Links are read behind a complete operand, each of them onto what stands on its left. -/
theorem read_links {links : List Link}
    (signs : ∀ link ∈ links, link.sign.kind.Signs link.op)
    (operands : ∀ link ∈ links, Read .operand link.tokens link.operand) {slot : Slot} {value : Expr}
    {level : Level} {outer : List Level} (complete : slot.value? = some value) :
    ∃ last final after, last.value? = some final ∧
      Level.join after final = links.foldl Link.attach (level.join value) ∧
      after.tokens = (links.flatMap Link.written).reverse ++ level.tokens ∧
      Reads ⟨slot, level, outer⟩ (links.flatMap Link.written) ⟨last, after, outer⟩ := by
  induction links generalizing slot value level with
  | nil => exact ⟨slot, value, level, complete, rfl, rfl, .refl _⟩
  | cons link rest ih =>
    have isSign := signs link List.mem_cons_self
    let joined : Level := ⟨some (level.join value, link.op), link.sign :: level.tokens⟩
    have signRead : Reads ⟨slot, level, outer⟩ [link.sign] ⟨.operand, joined, outer⟩ :=
      .single (.sign complete isSign)
    obtain ⟨next, nextComplete, operandRead⟩ := operands link List.mem_cons_self joined outer
    obtain ⟨last, final, after, lastComplete, tree, gathered, restRead⟩ :=
      @ih (fun other member => signs other (List.mem_cons_of_mem link member))
        (fun other member => operands other (List.mem_cons_of_mem link member))
        next link.operand (joined.pushAll link.tokens) nextComplete
    refine ⟨last, final, after, lastComplete, tree, ?_, ?_⟩
    · rw [gathered]
      simp only [joined, Level.pushAll, Link.written, List.flatMap_cons, List.reverse_append,
        List.reverse_cons, List.append_assoc, List.cons_append, List.nil_append]
    · exact (signRead.trans operandRead).trans restRead

/-- Every derived phrase is read through. -/
theorem Derives.read {phrase : Phrase} {tokens : List Token} {tree : Expr}
    (derives : Derives phrase tokens tree) : phrase.Read tokens tree := by
  induction derives with
  | dice isDice => exact fun level outer => .single (.dice isDice)
  | @group left right body tree opens inner closes ih =>
    intro level outer
    obtain ⟨slot, value, inside, complete, joined, gathered, bodyRead⟩ :=
      ih (level.push left :: outer)
    have opened :
        Reads ⟨.operand, level, outer⟩ [left] ⟨.operand, .empty, level.push left :: outer⟩ :=
      .single (.opens opens)
    have whole := (opened.trans bodyRead).trans (.single (.closes complete closes))
    have text : inside.text = String.ofList (Token.join body) := by
      unfold Level.text
      rw [gathered, List.reverse_reverse]
    have after : right :: (inside.tokens ++ (level.push left).tokens) =
        (left :: (body ++ [right])).reverse ++ level.tokens := by
      rw [gathered]
      simp only [Level.push, List.reverse_cons, List.reverse_append, List.append_assoc,
        List.reverse_nil, List.cons_append, List.nil_append]
    rw [text, joined, after] at whole
    exact whole
  | @integer token score isInteger =>
    exact fun level outer => ⟨.closed (.int score), rfl, .single (.integer isInteger)⟩
  | @bare tokens tree _ ih => exact fun level outer => ⟨.bare tree, rfl, ih level outer⟩
  | @flagged tokens suffix tree flag _ spelled ih =>
    intro level outer
    obtain ⟨slot, complete, flagRead⟩ := read_flag spelled tree (level.pushAll tokens) outer
    have whole := (ih level outer).trans flagRead
    refine ⟨slot, complete, ?_⟩
    simpa only [Level.pushAll, List.reverse_append, List.append_assoc] using whole
  | @sequence tokens tree links _ signs _ first operands =>
    intro outer
    obtain ⟨slot, complete, firstRead⟩ := first .empty outer
    obtain ⟨last, final, after, lastComplete, joined, gathered, linksRead⟩ :=
      @read_links links signs operands slot tree (Level.pushAll .empty tokens) outer complete
    refine ⟨last, final, after, lastComplete, joined, ?_, firstRead.trans linksRead⟩
    rw [gathered, List.reverse_append]
    simp only [Level.pushAll, Level.empty, List.append_nil]

end Phrase

/-- Tokens are read as an expression exactly if they are derived as a sequence. -/
theorem Expression.ofTokens_eq_ok_iff {tokens : List Token} {expression : Expression}
    (unsigned : ∀ token ∈ tokens, token.Unsigned) :
    ofTokens tokens = .ok expression ↔ Derives .sequence tokens expression.root ∧
      expression.text = String.ofList (Token.join tokens) := by
  unfold ofTokens
  rw [Reading.run_eq_ok_iff]
  constructor
  · rintro ⟨last, reads, done⟩
    exact (Reading.start_took.reads unsigned reads).finish done
  · rintro ⟨derives, text⟩
    obtain ⟨slot, value, level, complete, joined, gathered, reads⟩ := derives.read []
    refine ⟨⟨slot, level, []⟩, reads, ?_⟩
    obtain ⟨_, root⟩ := expression
    subst joined text
    simp only [Reading.finish, complete, Level.text, gathered, List.reverse_reverse]

end Tabletop
