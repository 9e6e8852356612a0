import Tabletop.Proofs.Completion

/-!
# Where reading fails

An error stands at the earliest token it can stand at: some accepted text begins with the tokens
before it, and none with these and the token itself. What an error lists as expected could follow
the tokens before it, and if it lists nothing, the text could have ended there.
-/

namespace Tabletop

open ParseError (Cause)
open Phrase (Derives)

/-! ## Places of tokens -/

theorem byteLength_pos {chars : List Char} (nonempty : chars ≠ []) : 0 < byteLength chars := by
  obtain ⟨char, rest, rfl⟩ := List.exists_cons_of_ne_nil nonempty
  exact Nat.add_pos_left char.utf8Size_pos _

namespace Token

/-- Places are not empty and lie behind what comes before. -/
theorem mem_spans {start : Nat} {tokens : List Token} (nonempty : ∀ token ∈ tokens, token.text ≠ [])
    {span : Span} (member : span ∈ spans start tokens) :
    start ≤ span.start ∧ span.start < span.stop := by
  induction tokens generalizing start with
  | nil => cases member
  | cons token tokens ih =>
    have size := byteLength_pos (nonempty token List.mem_cons_self)
    rcases List.mem_cons.mp member with rfl | member
    · constructor <;> dsimp only <;> omega
    · have later := ih (fun other inside => nonempty other (List.mem_cons_of_mem _ inside)) member
      omega

/-- No two tokens have the same place. -/
theorem nodup_spans {start : Nat} {tokens : List Token}
    (nonempty : ∀ token ∈ tokens, token.text ≠ []) : (spans start tokens).Nodup := by
  induction tokens generalizing start with
  | nil => exact List.nodup_nil
  | cons token tokens ih =>
    have size := byteLength_pos (nonempty token List.mem_cons_self)
    have rest : ∀ other ∈ tokens, other.text ≠ [] := fun other inside =>
      nonempty other (List.mem_cons_of_mem _ inside)
    refine List.nodup_cons.mpr ⟨fun member => ?_, ih rest⟩
    have later := mem_spans rest member
    dsimp only at later
    omega

theorem text_ne_nil_of_mem_scan {text : List Char} :
    ∀ token ∈ scan text, token.text ≠ [] := by
  intro token member
  obtain ⟨_, leads⟩ := leads_of_mem_scan member
  exact leads.text_ne_nil

end Token

namespace ParseError

/-- The number of the token that has the place of the error, or the number of all tokens if none
has. -/
def tokenIndex (error : ParseError) (text : String) : Nat :=
  (Token.spans 0 (Token.scan text.toList)).idxOf error.span

/-- The kinds that an error lists as expected, where it lists any. -/
def Cause.expected? : Cause → Option (List TokenKind)
  | .unexpectedToken _ expected | .strayText expected => some expected
  | .badDice _ | .integerTooLarge | .unknownFlag | .misplacedFlag | .needlessCount _ => none

theorem Cause.expected?_unexpected (found : Option TokenKind) (expected : List TokenKind) :
    (Cause.unexpected found expected).expected? = some expected := by
  unfold Cause.unexpected
  split <;> rfl

/-- An error at a token is found at the number of that token. -/
theorem tokenIndex_atToken {text : String} {index : Nat}
    (within : index ≤ (Token.scan text.toList).length) (cause : Cause) :
    let error := atToken (byteLength text.toList) (Token.scan text.toList) index cause
    error.cause = cause ∧ error.tokenIndex text = index ∧
      (index = (Token.scan text.toList).length →
        error.span = ⟨byteLength text.toList, byteLength text.toList⟩) := by
  have nonempty := @Token.text_ne_nil_of_mem_scan text.toList
  unfold tokenIndex
  generalize Token.scan text.toList = tokens at within nonempty ⊢
  intro error
  by_cases inside : index < tokens.length
  · have place : index < (Token.spans 0 tokens).length := by
      rw [Token.length_spans]
      exact inside
    have equal : error = ⟨cause, (Token.spans 0 tokens)[index], String.ofList tokens[index].text⟩ :=
      by simp only [error, atToken, List.getElem?_eq_getElem inside, List.getElem?_eq_getElem place]
    rw [equal]
    refine ⟨rfl, (Token.nodup_spans nonempty).idxOf_getElem index place, fun atEnd => ?_⟩
    omega
  · have atEnd : tokens[index]? = none := List.getElem?_eq_none (Nat.le_of_not_lt inside)
    have equal : error = ⟨cause, ⟨byteLength text.toList, byteLength text.toList⟩, ""⟩ := by
      simp only [error, atToken, atEnd]
    rw [equal]
    refine ⟨rfl, ?_, fun _ => rfl⟩
    have missing :
        (⟨byteLength text.toList, byteLength text.toList⟩ : Span) ∉ Token.spans 0 tokens := by
      intro member
      exact absurd (Token.mem_spans nonempty member).2 (Nat.lt_irrefl _)
    rw [List.idxOf_eq_length missing, Token.length_spans]
    omega

end ParseError

/-! ## What is expected -/

namespace Token

theorem expected?_of_readInteger {token : Token} {cause : Cause}
    (failed : token.readInteger = .error cause) : cause.expected? = none := by
  unfold readInteger at failed
  split at failed
  · cases failed
    rfl
  · split at failed
    · cases failed
    · cases failed
      rfl

theorem expected?_of_readDice {token : Token} {cause : Cause}
    (failed : token.readDice = .error cause) : cause.expected? = none := by
  unfold readDice at failed
  cases read : Dice.ofChars token.text with
  | error fault => rw [read] at failed; cases failed; rfl
  | ok term => rw [read] at failed; cases failed

theorem expected?_of_readFlagWord {token : Token} {cause : Cause}
    (failed : token.readFlagWord = .error cause) : cause.expected? = none := by
  unfold readFlagWord at failed
  split at failed
  · cases failed
  · cases failed
    rfl

end Token

namespace Reading

/-- The cause lists what the reading expects, or nothing. -/
def Lists (reading : Reading) (cause : Cause) : Prop :=
  ∀ expected, cause.expected? = some expected → expected = reading.expected

theorem lists_unexpected (reading : Reading) (found : Option TokenKind) :
    reading.Lists (.unexpected found reading.expected) := by
  intro expected same
  rw [Cause.expected?_unexpected] at same
  exact (Option.some.inj same).symm

/-- A step that reads a value fails only where the value cannot be read. -/
theorem error_of_read {α : Type} {read : Except Cause α} {fill : α → Reading} {cause : Cause}
    (failed : (do return fill (← read)) = Except.error cause) : read = .error cause := by
  cases read with
  | error fault => cases failed; rfl
  | ok value => cases failed

theorem error_cases_of_stepAfter {reading : Reading} {token : Token} {value : Expr} {cause : Cause}
    (failed : reading.stepAfter token value = .error cause) :
    cause.expected? = none ∨ cause = .unexpected (some token.kind) reading.expected := by
  unfold stepAfter at failed
  split at failed
  · cases failed
    exact .inl rfl
  · split at failed
    · cases failed
    · cases failed
      exact .inr rfl
  · split at failed
    · cases failed
    · cases failed
      exact .inr rfl

/-- A token is refused either because of what it says, without a list, or because of its kind, and
then with the list of what the reading expects. -/
theorem error_cases_of_step {reading : Reading} {token : Token} {cause : Cause}
    (failed : reading.step token = .error cause) :
    cause.expected? = none ∨ cause = .unexpected (some token.kind) reading.expected := by
  unfold step at failed
  split at failed
  next => exact .inl (Token.expected?_of_readInteger (error_of_read failed))
  next => exact .inl (Token.expected?_of_readDice (error_of_read failed))
  next => cases failed
  next => exact .inl (Token.expected?_of_readFlagWord (error_of_read failed))
  next =>
    split at failed
    · cases failed
    · cases failed
      exact .inl rfl
  next => exact .inl (Token.expected?_of_readInteger (error_of_read failed))
  next => cases failed
  next =>
    split at failed
    · exact error_cases_of_stepAfter failed
    · cases failed
      exact .inr rfl

theorem lists_of_step {reading : Reading} {token : Token} {cause : Cause}
    (failed : reading.step token = .error cause) : reading.Lists cause := by
  rcases error_cases_of_step failed with unlisted | rfl
  · intro expected same
    rw [unlisted] at same
    cases same
  · exact reading.lists_unexpected _

/-- At the end of the text there is no token to blame. -/
theorem cause_of_finish {reading : Reading} {cause : Cause}
    (failed : reading.finish = .error cause) : cause = .unexpected none reading.expected := by
  unfold Reading.finish at failed
  split at failed
  · cases failed
  · cases failed
    rfl

theorem lists_of_stuck {reading : Reading} {rest : List Token} {cause : Cause}
    (stuck : Stuck reading rest cause) : reading.Lists cause := by
  cases stuck with
  | ended finish => exact cause_of_finish finish ▸ reading.lists_unexpected none
  | refused step => exact lists_of_step step

/-- Of each kind that a reading expects there is a token that it takes. -/
theorem exists_step_of_expected {reading : Reading} {kind : TokenKind}
    (member : kind ∈ reading.expected) :
    ∃ token next rest, token.kind = kind ∧ token.Leads rest ∧ Step reading token next := by
  obtain ⟨slot, level, outer⟩ := reading
  have closing {value : Expr} (complete : slot.value? = some value)
      (member : kind ∈ if outer = [] then [] else [TokenKind.rightParen]) :
      ∃ token next rest, token.kind = kind ∧ token.Leads rest ∧
        Step ⟨slot, level, outer⟩ token next := by
    cases outer with
    | nil => cases member
    | cons around outer =>
      rw [if_neg (List.cons_ne_nil around outer), List.mem_singleton] at member
      exact ⟨_, _, [], member.symm, Token.leads_close, .closes complete rfl⟩
  cases slot with
  | operand =>
    simp only [expected, List.mem_cons, List.not_mem_nil, or_false] at member
    rcases member with rfl | rfl | rfl
    · exact ⟨_, _, [], rfl, Token.leads_one, .integer Token.isInteger_one⟩
    · exact ⟨_, _, [], rfl, Token.isDice_one.standsAlone.leads Token.nil_blanks .nil,
        .dice Token.isDice_one⟩
    · have left : Token.Leads ⟨[], .leftParen, ['(']⟩ [] :=
        Token.leads_leftParen Token.nil_blanks
      exact ⟨_, _, [], rfl, left, .opens rfl⟩
  | closed value => exact closing rfl member
  | bare target => exact closing rfl member
  | flagged target word => exact closing rfl member
  | count target word =>
    rw [expected, List.mem_singleton] at member
    exact ⟨_, _, [], member.symm, Token.leads_one, .count Token.isInteger_one⟩
  | counted target word count =>
    rw [expected, List.mem_singleton] at member
    exact ⟨_, _, [], member.symm, Token.leads_close, .countCloses rfl⟩

/-- The text may end where nothing is expected. -/
theorem finish_of_expected_nil {reading : Reading} (nothing : reading.expected = []) :
    ∃ expression, reading.finish = .ok expression := by
  obtain ⟨slot, level, outer⟩ := reading
  have ending {value : Expr} (complete : slot.value? = some value)
      (nothing : (if outer = [] then [] else [TokenKind.rightParen]) = []) :
      ∃ expression, finish ⟨slot, level, outer⟩ = .ok expression := by
    cases outer with
    | nil => exact ⟨_, finish_of_complete level complete⟩
    | cons around outer =>
      rw [if_neg (List.cons_ne_nil around outer)] at nothing
      cases nothing
  cases slot with
  | operand | count | counted => cases nothing
  | closed value => exact ending rfl nothing
  | bare target => exact ending rfl nothing
  | flagged target word => exact ending rfl nothing

end Reading

/-! ## Errors of parsing -/

namespace Expression

open Reading (Reads Stuck)

/-- Where a text is refused, a run is stuck: it has taken the tokens before the error, which stands
at the next one. -/
theorem stuck_of_parse {text : String} {error : ParseError} (failed : parse text = .error error) :
    ∃ before rest last cause, Token.scan text.toList = before ++ rest ∧
      Reads .start before last ∧ Stuck last rest cause ∧
      error = .atToken (byteLength text.toList) (Token.scan text.toList) before.length cause := by
  unfold parse Token.readAll at failed
  dsimp only at failed
  cases run : ofTokens (Token.scan text.toList) with
  | ok expression => rw [run] at failed; cases failed
  | error failure =>
    rw [run] at failed
    cases failed
    obtain ⟨before, rest, last, split, reads, index, stuck⟩ := Reading.stuck_of_run run
    rw [Nat.zero_add] at index
    refine ⟨before, rest, last, failure.cause, split, reads, stuck, ?_⟩
    dsimp only
    rw [index]

/-- The place of an error tells how many tokens have been taken before it. -/
theorem exists_stuck_of_parse {text : String} {error : ParseError}
    (failed : parse text = .error error) :
    ∃ before rest last, Token.scan text.toList = before ++ rest ∧ Reads .start before last ∧
      Stuck last rest error.cause ∧ error.tokenIndex text = before.length ∧
      (rest = [] → error.span = ⟨byteLength text.toList, byteLength text.toList⟩) := by
  obtain ⟨before, rest, last, cause, split, reads, stuck, rfl⟩ := stuck_of_parse failed
  have within : before.length ≤ (Token.scan text.toList).length := by
    rw [split, List.length_append]
    exact Nat.le_add_right _ _
  obtain ⟨same, position, ending⟩ := ParseError.tokenIndex_atToken within cause
  refine ⟨before, rest, last, split, reads, same.symm ▸ stuck, position, ?_⟩
  rintro rfl
  apply ending
  rw [split, List.append_nil]

/-- No accepted text goes on with a token that is refused. -/
theorem not_extensible_of_refused {before : List Token} {token : Token} {last : Reading}
    {cause : Cause} (reads : Reads .start before last) (refused : last.step token = .error cause) :
    ¬ Extensible ((before ++ [token]).map Token.content) := by
  intro extensible
  obtain ⟨more, tree, derives⟩ := derives_of_extensible extensible
  obtain ⟨slot, value, level, _, _, _, all⟩ := derives.read []
  obtain ⟨middle, head, _⟩ := all.split
  obtain ⟨again, first, second⟩ := head.split
  cases reads.unique first
  cases second with
  | step taken => rw [refused] at taken; cases taken

/-- Errors stand as early as they can. Some accepted text begins with the tokens before the error,
but none goes on with the token at the error; where the error is at the end, no accepted text has
the tokens. Each kind that the error lists can follow in an accepted text, and if it lists none, the
tokens before it are those of an accepted text. -/
theorem parse_error_earliest {text : String} {error : ParseError}
    (failed : parse text = .error error) :
    let contents := Token.contents text
    let index := error.tokenIndex text
    Extensible (contents.take index) ∧
      (index < contents.length → ¬ Extensible (contents.take (index + 1))) ∧
      (index = contents.length → ¬ Accepted contents ∧
        error.span = ⟨byteLength text.toList, byteLength text.toList⟩) ∧
      ∀ expected, error.cause.expected? = some expected →
        (∀ kind ∈ expected, ∃ slice, Extensible (contents.take index ++ [(kind, slice)])) ∧
        (expected = [] → Accepted (contents.take index)) := by
  intro contents index
  obtain ⟨before, rest, last, split, reads, stuck, position, ending⟩ := exists_stuck_of_parse failed
  have whole : contents = before.map Token.content ++ rest.map Token.content := by
    rw [← List.map_append, ← split]
    rfl
  have size : index = (before.map Token.content).length := by
    rw [List.length_map]
    exact position
  have found : ∀ token ∈ before, ∃ rest, token.Leads rest := by
    intro token member
    exact Token.leads_of_mem_scan (split ▸ List.mem_append_left rest member)
  have taken : contents.take index = before.map Token.content := by
    rw [whole, size, List.take_left]
  rw [taken]
  refine ⟨extensible_of_reads reads found, ?_, ?_, ?_⟩
  · intro within extensible
    cases rest with
    | nil =>
      rw [whole, size, List.map_nil, List.append_nil] at within
      exact Nat.lt_irrefl _ within
    | cons token rest =>
      have through : contents.take (index + 1) = (before ++ [token]).map Token.content := by
        rw [whole, size, List.map_cons, List.map_append, List.take_length_add_append]
        rfl
      rw [through] at extensible
      cases stuck with
      | refused step => exact not_extensible_of_refused reads step extensible
  · intro atEnd
    have rest_nil : rest = [] := by
      rw [size, whole, List.length_append] at atEnd
      have none : (rest.map Token.content).length = 0 := by omega
      exact List.map_eq_nil_iff.mp (List.length_eq_zero_iff.mp none)
    refine ⟨fun accepted => ?_, ending rest_nil⟩
    obtain ⟨tree, derives⟩ := derives_of_accepted accepted
    rw [parse_of_derives derives] at failed
    cases failed
  · intro expected lists
    rw [Reading.lists_of_stuck stuck expected lists]
    constructor
    · intro kind member
      obtain ⟨token, next, after, kind_eq, leads, step⟩ := Reading.exists_step_of_expected member
      have more := extensible_of_reads (reads.trans (.single step))
        (List.forall_mem_append.mpr ⟨found, List.forall_mem_singleton.mpr ⟨after, leads⟩⟩)
      rw [List.map_append] at more
      exact ⟨token.text, kind_eq ▸ more⟩
    · intro nothing
      obtain ⟨expression, done⟩ := Reading.finish_of_expected_nil nothing
      exact accepted_of_reads reads found done

/-- In an open group a number cannot follow a dice term, but a parenthesis can. -/
theorem parse_error_earliest_unclosed :
    let text := "(2d6 3"
    let error : ParseError := ⟨.unexpectedToken (some .integer) [.rightParen], ⟨5, 6⟩, "3"⟩
    parse text = .error error ∧ error.tokenIndex text = 2 ∧
      Extensible ((Token.contents text).take 2) ∧ ¬ Extensible ((Token.contents text).take 3) ∧
      ∃ slice, Extensible ((Token.contents text).take 2 ++ [(.rightParen, slice)]) := by
  intro text error
  have failed : parse text = .error error := by decide +kernel
  have index : error.tokenIndex text = 2 := by decide +kernel
  have size : (Token.contents text).length = 3 := by decide +kernel
  obtain ⟨before, refused, _, expected⟩ := parse_error_earliest failed
  rw [index] at before refused expected
  obtain ⟨follows, _⟩ := expected _ rfl
  exact ⟨failed, index, before, refused (by rw [size]; decide), follows _ List.mem_cons_self⟩

end Expression

end Tabletop
