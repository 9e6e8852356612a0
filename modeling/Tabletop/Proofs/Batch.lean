import Tabletop.Batch
import Tabletop.Proofs.Stateful

/-!
# Batches compose

A batch that is put together from two with a separator between them is rolled like the first one and
then the second one, in the session that the first one has left. Only the errors differ: their
indices count the expressions of the first batch, and the places of reading errors its bytes.
-/

namespace Tabletop

open Stateful

/-! ## Errors of a batch -/

namespace Error

/-- The index of the expression that failed; one that stands alone is the first. -/
def place : Error → Nat
  | .batch index _ => index
  | _ => 0

/-- The error of the expression itself. -/
def cause : Error → Error
  | .batch _ source => source
  | error => error

/-- The same error where the text stands `distance` bytes into a longer one. -/
def shift (error : Error) (distance : Nat) : Error :=
  match error with
  | .parse error => .parse (error.shift distance)
  | error => error

/-- The error as it is reported behind `index` other expressions, which take `distance` bytes. -/
def behind (error : Error) (index distance : Nat) : Error :=
  .batch (index + error.place) (error.cause.shift distance)

/-- Whether the error says which expression of a batch failed. -/
def isBatch : Error → Bool
  | .batch .. => true
  | _ => false

end Error

theorem ParseError.shift_shift (error : ParseError) (first second : Nat) :
    (error.shift first).shift second = error.shift (second + first) := by
  simp only [shift, Span.shift, Nat.add_assoc, Nat.add_comm first]

theorem Error.shift_zero (error : Error) : error.shift 0 = error := by
  cases error <;> rfl

namespace Batch

/-! ## Pieces of a text -/

theorem isSeparator_iff {char : Char} : isSeparator char = true ↔ char = ',' ∨ char = ';' := by
  simp [isSeparator]

theorem splitChars_append_separator {separator : Char} (ends : isSeparator separator = true)
    (first second : List Char) :
    splitChars (first ++ separator :: second) =
      ((splitChars first).1,
        (splitChars first).2 ++ (splitChars second).1 :: (splitChars second).2) := by
  induction first with
  | nil => simp [splitChars, ends]
  | cons char first ih =>
    simp only [List.cons_append, splitChars, ih]
    split <;> rfl

/-- The pieces of two texts with a separator between them are those of either text. -/
theorem split_append_separator {separator : Char} (ends : isSeparator separator = true)
    (first second : String) :
    split (first.push separator ++ second) = split first ++ split second := by
  unfold split
  rw [String.toList_append, String.toList_push, List.append_assoc, List.singleton_append,
    splitChars_append_separator ends]
  simp

/-- A text is cut exactly at its separators. -/
theorem splitChars_snd_eq_nil_iff {chars : List Char} :
    (splitChars chars).2 = [] ↔ ∀ char ∈ chars, isSeparator char = false := by
  induction chars with
  | nil => simp [splitChars]
  | cons char chars ih =>
    cases ends : isSeparator char <;> simp [splitChars, ends, ih]

/-- How many bytes these pieces take, each with the separator after it. -/
def extent (pieces : List String) : Nat :=
  (pieces.map fun piece => byteLength piece.toList + 1).sum

@[simp] theorem extent_cons (piece : String) (pieces : List String) :
    extent (piece :: pieces) = byteLength piece.toList + 1 + extent pieces := by
  simp [extent]

theorem utf8Size_of_isSeparator {char : Char} (ends : isSeparator char = true) :
    char.utf8Size = 1 := by
  rcases isSeparator_iff.mp ends with rfl | rfl <;> decide

/-- The pieces of a text and their separators take one byte more than the text. -/
theorem extent_split (text : String) : extent (split text) = byteLength text.toList + 1 := by
  unfold split
  generalize text.toList = chars
  induction chars with
  | nil => rfl
  | cons char chars ih =>
    simp only [List.map_cons, extent_cons, String.toList_ofList] at ih
    cases ends : isSeparator char with
    | true =>
      simp only [splitChars, ends, if_true, List.map_cons, extent_cons, String.toList_ofList,
        byteLength, utf8Size_of_isSeparator ends]
      omega
    | false =>
      simp only [splitChars, ends, Bool.false_eq_true, if_false, List.map_cons, extent_cons,
        String.toList_ofList, byteLength]
      omega

/-! ## Rolling pieces -/

variable {σ : Type} [Source σ]

/-- Pieces are rolled one after another, in whatever groups they are taken. -/
theorem rollPieces_append (index start : Nat) (left right : List String) :
    (rollPieces index start (left ++ right) : BatchM σ (List Roll)) = do
      let rolls ← rollPieces index start left
      let more ← rollPieces (index + left.length) (start + extent left) right
      return rolls ++ more := by
  induction left generalizing index start with
  | nil => simp [rollPieces, extent]
  | cons piece left ih =>
    simp only [List.cons_append, rollPieces, ih, bind_assoc, pure_bind, List.length_cons,
      extent_cons, Nat.add_assoc, Nat.add_comm 1]

theorem rollPiece_of_ok {start : Nat} {piece : String} {expression : Expression}
    (parsed : Expression.parse piece = .ok expression) :
    (rollPiece start piece : BatchM σ Roll) = expression.roll.adaptExcept Error.roll := by
  unfold rollPiece
  rw [parsed]

theorem rollPiece_of_error {start : Nat} {piece : String} {error : ParseError}
    (unread : Expression.parse piece = .error error) :
    (rollPiece start piece : BatchM σ Roll) = throw (.parse (error.shift start)) := by
  unfold rollPiece
  rw [unread]

/-- A piece fails over its reading or over its roll, and not with the error of a batch. -/
theorem adaptExcept_rollPiece {start : Nat} {piece : String} {change other : Error → Error}
    (reading : ∀ error, change (.parse error) = other (.parse error))
    (rolling : ∀ error, change (.roll error) = other (.roll error)) :
    (rollPiece start piece : BatchM σ Roll).adaptExcept change =
      (rollPiece start piece).adaptExcept other := by
  cases parsed : Expression.parse piece with
  | error error =>
    rw [rollPiece_of_error parsed, adaptExcept_throw, adaptExcept_throw, reading]
  | ok expression =>
    rw [rollPiece_of_ok parsed, adaptExcept_adaptExcept, adaptExcept_adaptExcept]
    congr 1
    funext error
    exact rolling error

/-- A piece is reported further right by the bytes before it. -/
theorem rollPiece_add (distance start : Nat) (piece : String) :
    (rollPiece (distance + start) piece : BatchM σ Roll) =
      (rollPiece start piece).adaptExcept (·.shift distance) := by
  cases parsed : Expression.parse piece with
  | error error =>
    rw [rollPiece_of_error parsed, rollPiece_of_error parsed, adaptExcept_throw,
      ← ParseError.shift_shift]
    rfl
  | ok expression =>
    rw [rollPiece_of_ok parsed, rollPiece_of_ok parsed, adaptExcept_adaptExcept]
    rfl

/-- Pieces behind others are reported with the indices and at the places they have there. -/
theorem rollPieces_add (index first distance start : Nat) (pieces : List String) :
    (rollPieces (index + first) (distance + start) pieces : BatchM σ (List Roll)) =
      (rollPieces first start pieces).adaptExcept (·.behind index distance) := by
  induction pieces generalizing first start with
  | nil => rfl
  | cons piece pieces ih =>
    simp only [rollPieces, adaptExcept_bind, adaptExcept_adaptExcept, rollPiece_add,
      Nat.add_assoc, ih]
    rfl

theorem roll_of_split_eq {text piece : String} (only : split text = [piece]) :
    (roll text : BatchM σ (List Roll)) = rollPiece 0 piece >>= fun roll => pure [roll] := by
  unfold roll
  rw [only]

/-- A text with a separator is rolled piece by piece. -/
theorem roll_of_length_ne {text : String} (several : (split text).length ≠ 1) :
    (roll text : BatchM σ (List Roll)) = rollPieces 0 0 (split text) := by
  unfold roll
  split
  next piece only => exact absurd (congrArg List.length only) several
  next => rfl

/-- The pieces of a text behind others are rolled like the text, except for the errors. -/
theorem rollPieces_split (index distance : Nat) (text : String) :
    (rollPieces index distance (split text) : BatchM σ (List Roll)) =
      (roll text).adaptExcept (·.behind index distance) := by
  by_cases alone : (split text).length = 1
  · obtain ⟨piece, only⟩ := List.length_eq_one_iff.mp alone
    have same : (rollPiece 0 piece : BatchM σ Roll).adaptExcept
          (Error.batch index ∘ (·.shift distance)) =
        (rollPiece 0 piece).adaptExcept (·.behind index distance) :=
      adaptExcept_rollPiece (fun _ => rfl) (fun _ => rfl)
    rw [roll_of_split_eq only, only, adaptExcept_bind, ← Nat.add_zero distance]
    simp only [rollPieces, pure_bind, rollPiece_add, adaptExcept_adaptExcept]
    rw [same]
    rfl
  · rw [roll_of_length_ne alone]
    exact rollPieces_add index 0 distance 0 _

theorem length_split_pos (text : String) : 0 < (split text).length := Nat.succ_pos _

/-- Two texts with a separator between them are rolled one after the other. -/
theorem roll_append_separator {separator : Char} (ends : isSeparator separator = true)
    (first second : String) :
    (roll (first.push separator ++ second) : BatchM σ (List Roll)) = do
      let rolls ← (roll first).adaptExcept (·.behind 0 0)
      let more ← (roll second).adaptExcept
        (·.behind (split first).length (byteLength first.toList + 1))
      return rolls ++ more := by
  have pieces := split_append_separator ends first second
  have several : (split (first.push separator ++ second)).length ≠ 1 := by
    have left := length_split_pos first
    have right := length_split_pos second
    rw [pieces, List.length_append]
    omega
  rw [roll_of_length_ne several, pieces, rollPieces_append, rollPieces_split, rollPieces_split,
    extent_split, Nat.zero_add, Nat.zero_add]

/-! ## Results and errors of a batch -/

variable {session after : Session σ}

/-- Every piece that is rolled gives one roll. -/
theorem length_of_rollPieces {index start : Nat} {pieces : List String} {rolls : List Roll}
    (done : rollPieces index start pieces session = .ok rolls after) :
    rolls.length = pieces.length := by
  induction pieces generalizing index start rolls session with
  | nil =>
    cases done
    rfl
  | cons piece pieces ih =>
    obtain ⟨roll, between, _, rest⟩ := bind_eq_ok_iff.mp done
    obtain ⟨others, last, tail, rest⟩ := bind_eq_ok_iff.mp rest
    obtain ⟨rfl, rfl⟩ := pure_eq_ok_iff.mp rest
    rw [List.length_cons, List.length_cons, ih tail]

theorem length_of_roll {text : String} {rolls : List Roll}
    (done : roll text session = .ok rolls after) : rolls.length = (split text).length := by
  have whole := congrFun (rollPieces_split 0 0 text) session
  rw [adaptExcept_eq_ok_iff.mpr done] at whole
  exact length_of_rollPieces whole

theorem isBatch_of_rollPiece {start : Nat} {piece : String} {error : Error}
    (failed : rollPiece start piece session = .error error after) : error.isBatch = false := by
  cases parsed : Expression.parse piece with
  | error unread =>
    rw [rollPiece_of_error parsed] at failed
    cases failed
    rfl
  | ok expression =>
    rw [rollPiece_of_ok parsed] at failed
    obtain ⟨cause, _, rfl⟩ := adaptExcept_eq_error_iff.mp failed
    rfl

/-- Several pieces fail where one of them does, and name it. That one begins behind the pieces
before it. -/
theorem exists_of_rollPieces {index start : Nat} {pieces : List String} {error : Error}
    (failed : rollPieces index start pieces session = .error error after) :
    ∃ before piece source between, error = .batch (index + before) source ∧
      pieces[before]? = some piece ∧
      rollPiece (start + extent (pieces.take before)) piece between = .error source after := by
  induction pieces generalizing index start session with
  | nil => cases failed
  | cons piece pieces ih =>
    rcases bind_eq_error_iff.mp failed with head | ⟨roll, between, _, rest⟩
    · obtain ⟨source, alone, rfl⟩ := adaptExcept_eq_error_iff.mp head
      exact ⟨0, piece, source, session, rfl, rfl, alone⟩
    · obtain ⟨before, found, source, last, same, among, alone⟩ :=
        ih (bind_pure_eq_error_iff.mp rest)
      refine ⟨before + 1, found, source, last, ?_, among, ?_⟩
      · rw [same, Nat.add_assoc, Nat.add_comm 1]
      · rw [List.take_succ_cons, extent_cons, ← Nat.add_assoc, ← Nat.add_assoc]
        exact alone

/-- The error of several pieces holds an error of one piece alone. -/
theorem isBatch_of_rollPieces {index start : Nat} {pieces : List String} {error : Error}
    (failed : rollPieces index start pieces session = .error error after) :
    error.isBatch = true ∧ error.cause.isBatch = false := by
  obtain ⟨_, _, _, _, rfl, _, alone⟩ := exists_of_rollPieces failed
  exact ⟨rfl, isBatch_of_rollPiece alone⟩

/-- A text that is not cut has no separator. -/
theorem length_split_eq_one_iff {text : String} :
    (split text).length = 1 ↔ ∀ char ∈ text.toList, isSeparator char = false := by
  rw [← splitChars_snd_eq_nil_iff, ← List.length_eq_zero_iff]
  unfold split
  simp

/-- An error names the piece that failed exactly if the text has a separator, and then holds an
error of that piece alone. -/
theorem isBatch_of_roll {text : String} {error : Error}
    (failed : roll text session = .error error after) :
    (error.isBatch = true ↔ ∃ char ∈ text.toList, isSeparator char = true) ∧
      error.cause.isBatch = false := by
  by_cases alone : (split text).length = 1
  · have none := length_split_eq_one_iff.mp alone
    obtain ⟨piece, only⟩ := List.length_eq_one_iff.mp alone
    rw [roll_of_split_eq only] at failed
    have single := isBatch_of_rollPiece (bind_pure_eq_error_iff.mp failed)
    refine ⟨⟨fun batch => ?_, fun ⟨char, member, ends⟩ => ?_⟩, ?_⟩
    · rw [single] at batch
      cases batch
    · rw [none char member] at ends
      cases ends
    · cases error with
      | batch index source => cases single
      | parse | roll | noDice => rfl
  · rw [roll_of_length_ne alone] at failed
    have shape := isBatch_of_rollPieces failed
    refine ⟨⟨fun _ => ?_, fun _ => shape.1⟩, shape.2⟩
    by_contra none
    refine alone (length_split_eq_one_iff.mpr fun char member => ?_)
    exact Bool.eq_false_iff.mpr fun ends => none ⟨char, member, ends⟩

/-- Batches compose. Where the first text is rolled, the second one is rolled in the session that is
left: all rolls together are the result, and an error of the second text is reported with its index
behind those of the first text and, for a reading error, its place behind the first text and the
separator. Where the first text fails, its error is the error, in the session as it was left then.
An error names the piece that failed exactly if the text has a separator, and never holds another
such error. -/
theorem roll_compose {separator : Char} (ends : separator = ',' ∨ separator = ';')
    (first second : String) (session : Session σ) :
    let whole := first.push separator ++ second
    (∀ rolls between, roll first session = .ok rolls between →
      (∀ more after, roll second between = .ok more after →
        roll whole session = .ok (rolls ++ more) after) ∧
      ∀ error after, roll second between = .error error after →
        roll whole session = .error (.batch (rolls.length + error.place)
          (error.cause.shift (byteLength first.toList + 1))) after) ∧
    (∀ error after, roll first session = .error error after →
      roll whole session = .error (.batch error.place error.cause) after) ∧
    ∀ text error after, roll text session = .error error after →
      (error.isBatch = true ↔ ∃ char ∈ text.toList, char = ',' ∨ char = ';') ∧
        error.cause.isBatch = false := by
  intro whole
  have both : (roll whole : BatchM σ (List Roll)) = _ :=
    roll_append_separator (isSeparator_iff.mpr ends) first second
  rw [both]
  refine ⟨fun rolls between done => ⟨?_, ?_⟩, fun error after failed => ?_, ?_⟩
  · intro more after doneToo
    refine bind_eq_ok_iff.mpr ⟨rolls, between, adaptExcept_eq_ok_iff.mpr done, ?_⟩
    exact bind_eq_ok_iff.mpr ⟨more, after, adaptExcept_eq_ok_iff.mpr doneToo, rfl⟩
  · intro error after failed
    rw [length_of_roll done]
    refine bind_eq_error_iff.mpr (.inr ⟨rolls, between, adaptExcept_eq_ok_iff.mpr done, ?_⟩)
    exact bind_pure_eq_error_iff.mpr (adaptExcept_eq_error_iff.mpr ⟨error, failed, rfl⟩)
  · refine bind_eq_error_iff.mpr (.inl (adaptExcept_eq_error_iff.mpr ⟨error, failed, ?_⟩))
    rw [Error.behind, Error.shift_zero, Nat.zero_add]
  · intro text error after failed
    simp only [← isSeparator_iff]
    exact isBatch_of_roll failed

/-- The second text of a batch is reported behind one roll and three bytes. -/
theorem roll_compose_stray :
    let session := Session.start none Loaded.highest
    let stray : ParseError := ⟨.strayText [.integer, .dice, .leftParen], ⟨0, 2⟩, "é"⟩
    ∃ rolls between after, roll "d6" session = .ok rolls between ∧
      roll "é" between = .error (.parse stray) after ∧
      roll ("d6".push ';' ++ "é") session = .error (.batch 1 (.parse (stray.shift 3))) after := by
  intro session stray
  have parsed : Expression.parse "d6" =
    .ok ⟨"d6", .dice ⟨.one, .numbered ⟨6, by decide, by decide⟩⟩⟩ := by decide +kernel
  have unread : Expression.parse "é" = .error stray := by decide +kernel
  have first : split "d6" = ["d6"] := by decide +kernel
  have second : split "é" = ["é"] := by decide +kernel
  have done : ∃ rolls between, roll "d6" session = .ok rolls between ∧ rolls.length = 1 := by
    rw [roll_of_split_eq first, rollPiece_of_ok parsed]
    exact ⟨_, _, rfl, rfl⟩
  obtain ⟨rolls, between, done, length⟩ := done
  have failed : roll "é" between = .error (.parse stray) between := by
    rw [roll_of_split_eq second, rollPiece_of_error unread]
    rfl
  have composed := ((roll_compose (.inr rfl) "d6" "é" session).1 rolls between done).2 _ _ failed
  rw [length] at composed
  exact ⟨rolls, between, between, done, failed, composed⟩

end Batch

end Tabletop
