import Tabletop.Proofs.Batch
import Tabletop.Proofs.ErrorPosition

/-!
# What the place of an error holds

The place of a reading error lies between two characters of the text and holds what the error
quotes. In a batch it lies in the piece that failed, whatever stands before the piece. It is empty
exactly where the piece ended too early, and then it is the end of the piece.
-/

namespace Tabletop

open ParseError (Cause)
open Stateful

/-! ## Bytes and characters -/

theorem utf8ByteSize_ofList (chars : List Char) :
    (String.ofList chars).utf8ByteSize = byteLength chars := by
  induction chars with
  | nil => rfl
  | cons char chars ih =>
    rw [String.ofList_cons, String.utf8ByteSize_append, String.utf8ByteSize_singleton, ih,
      byteLength]

theorem byteLength_toList (text : String) : byteLength text.toList = text.utf8ByteSize := by
  rw [← utf8ByteSize_ofList, String.ofList_toList]

namespace Span

/-- The place begins and ends between characters of the text, and `slice` stands there. -/
def Marks (span : Span) (text slice : String) : Prop :=
  ∃ start stop : text.Pos, start.offset.byteIdx = span.start ∧ stop.offset.byteIdx = span.stop ∧
    ∃ ordered : start ≤ stop, (text.slice start stop ordered).copy = slice

theorem Marks.le {span : Span} {text slice : String} (marks : span.Marks text slice) :
    span.start ≤ span.stop ∧ span.stop ≤ text.utf8ByteSize := by
  obtain ⟨start, stop, first, last, ordered, _⟩ := marks
  rw [← first, ← last]
  exact ⟨ordered, stop.isValid.le_utf8ByteSize⟩

/-- The place of `slice` where `before` stands before it. -/
def after (before slice : String) : Span :=
  ⟨before.utf8ByteSize, (before ++ slice).utf8ByteSize⟩

theorem shift_after (left before slice : String) :
    (after before slice).shift left.utf8ByteSize = after (left ++ before) slice := by
  simp only [after, shift, String.utf8ByteSize_append, Nat.add_comm _ left.utf8ByteSize,
    Nat.add_assoc]

theorem marks_after {text before slice behind : String} (whole : text = before ++ slice ++ behind) :
    (after before slice).Marks text slice := by
  have grouped : text = before ++ (slice ++ behind) := by rw [whole, String.append_assoc]
  have first := String.Pos.splits_ofEqAppend grouped
  have last := String.Pos.splits_ofEqAppend whole
  refine ⟨.ofEqAppend grouped, .ofEqAppend whole, ?_, ?_, ?_⟩
  · rw [first.offset_eq_rawEndPos]
    rfl
  · rw [last.offset_eq_rawEndPos]
    rfl
  · exact String.copy_slice_eq_iff_splits.mpr ⟨before, behind, first, last⟩

end Span

/-! ## Errors of one expression -/

namespace Token

/-- The place of a token begins behind the tokens before it and its own blanks. -/
theorem getElem?_spans (start : Nat) (before : List Token) (token : Token) (rest : List Token) :
    (spans start (before ++ token :: rest))[before.length]? =
      some ⟨start + byteLength (chars before ++ token.gap),
        start + byteLength (chars before ++ token.gap ++ token.text)⟩ := by
  induction before generalizing start with
  | nil => simp [spans, chars, byteLength_append, Nat.add_assoc]
  | cons first before ih =>
    rw [List.cons_append, spans, List.length_cons, List.getElem?_cons_succ, ih, chars_cons]
    simp only [byteLength_append, Nat.add_assoc]

end Token

namespace ParseError

/-- An error quotes what stands at its place, and quotes nothing exactly at the end of the text. -/
structure Quotes (error : ParseError) (text before behind : String) : Prop where
  whole : text = before ++ error.slice ++ behind
  span_eq : error.span = .after before error.slice
  slice_eq_empty_iff : error.slice = "" ↔ ∃ expected, error.cause = .unexpectedToken none expected
  at_end : error.slice = "" → behind = ""

end ParseError

namespace Reading

/-- A token that is refused is not taken for the end of the text. -/
theorem cause_ne_of_step {reading : Reading} {token : Token} {cause : Cause}
    (failed : reading.step token = .error cause) (expected : List TokenKind) :
    cause ≠ .unexpectedToken none expected := by
  rintro rfl
  rcases error_cases_of_step failed with unlisted | listed
  · cases unlisted
  · unfold Cause.unexpected at listed
    split at listed <;> cases listed

end Reading

namespace Expression

/-- An error at the end of a text quotes nothing. -/
theorem quotes_ended {text : String} {expected : List TokenKind} :
    ParseError.Quotes ⟨.unexpectedToken none expected,
      ⟨byteLength text.toList, byteLength text.toList⟩, ""⟩ text text "" where
  whole := by rw [String.append_empty, String.append_empty]
  span_eq := by simp only [Span.after, byteLength_toList, String.append_empty]
  slice_eq_empty_iff := ⟨fun _ => ⟨expected, rfl⟩, fun _ => rfl⟩
  at_end _ := rfl

theorem exists_quotes_of_parse {text : String} {error : ParseError}
    (failed : parse text = .error error) : ∃ before behind, error.Quotes text before behind := by
  obtain ⟨taken, rest, last, cause, split, _, stuck, rfl⟩ := stuck_of_parse failed
  cases stuck with
  | ended finish =>
    rw [Reading.cause_of_finish finish, split, List.append_nil, ParseError.atToken,
      List.getElem?_eq_none (Nat.le_refl _)]
    exact ⟨text, "", quotes_ended⟩
  | @refused token rest _ step =>
    obtain ⟨blanks, whole, _, _⟩ := Token.exists_scanned text.toList
    have nonempty : token.text ≠ [] :=
      Token.text_ne_nil_of_mem_scan token (split ▸ List.mem_append_right _ List.mem_cons_self)
    rw [split, Token.chars_append, Token.chars_cons] at whole
    rw [split, ParseError.atToken, List.getElem?_append_right (Nat.le_refl _), Nat.sub_self,
      List.getElem?_cons_zero, Token.getElem?_spans, Nat.zero_add, Nat.zero_add]
    refine ⟨.ofList (Token.chars taken ++ token.gap), .ofList (Token.chars rest ++ blanks), ?_⟩
    have absent : String.ofList token.text ≠ "" := fun empty =>
      nonempty (String.ofList_inj.mp (empty.trans String.ofList_nil.symm))
    refine ⟨?_, ?_, ?_, fun empty => absurd empty absent⟩
    · rw [← String.ofList_append, ← String.ofList_append, ← String.ofList_toList (s := text), whole]
      simp only [List.append_assoc]
    · simp only [Span.after, ← String.ofList_append, utf8ByteSize_ofList]
    · refine ⟨fun empty => absurd empty absent, ?_⟩
      rintro ⟨expected, same⟩
      exact absurd same (Reading.cause_ne_of_step step expected)

end Expression

/-! ## Pieces in their text -/

namespace Batch

/-- A text begins with its first piece. -/
theorem exists_eq_splitChars_append (chars : List Char) :
    ∃ right, chars = (splitChars chars).1 ++ right := by
  induction chars with
  | nil => exact ⟨[], rfl⟩
  | cons char chars ih =>
    unfold splitChars
    dsimp only
    split
    · exact ⟨char :: chars, rfl⟩
    · obtain ⟨right, whole⟩ := ih
      exact ⟨right, congrArg (List.cons char) whole⟩

/-- Every piece of a text stands in it behind the pieces before it, each with a separator. -/
theorem exists_of_splitChars {chars piece : List Char} {index : Nat}
    (found : ((splitChars chars).1 :: (splitChars chars).2)[index]? = some piece) :
    ∃ left right, chars = left ++ piece ++ right ∧
      (splitChars left).1 :: (splitChars left).2 =
        ((splitChars chars).1 :: (splitChars chars).2).take index ++ [[]] := by
  induction chars generalizing index with
  | nil =>
    cases index with
    | zero =>
      cases found
      exact ⟨[], [], rfl, rfl⟩
    | succ index => cases found
  | cons char chars ih =>
    cases index with
    | zero =>
      cases found
      obtain ⟨right, whole⟩ := exists_eq_splitChars_append (char :: chars)
      exact ⟨[], right, whole, rfl⟩
    | succ index =>
      cases ends : isSeparator char with
      | true =>
        simp only [splitChars, ends, if_true] at found ⊢
        obtain ⟨left, right, whole, before⟩ := ih found
        refine ⟨char :: left, right, congrArg (List.cons char) whole, ?_⟩
        simp only [splitChars, ends, if_true, before, List.take_succ_cons, List.cons_append]
      | false =>
        simp only [splitChars, ends, Bool.false_eq_true, if_false] at found ⊢
        have among : ((splitChars chars).1 :: (splitChars chars).2)[index + 1]? = some piece :=
          found
        obtain ⟨left, right, whole, before⟩ := ih among
        rw [List.take_succ_cons, List.cons_append] at before
        obtain ⟨first, rest⟩ := List.cons.inj before
        refine ⟨char :: left, right, congrArg (List.cons char) whole, ?_⟩
        simp only [splitChars, ends, Bool.false_eq_true, if_false, first, rest,
          List.take_succ_cons, List.cons_append]

/-- The piece with this index stands in the text behind `left`, which consists of the pieces before
it with their separators. -/
structure PieceAt (text : String) (index : Nat) (left piece right : String) : Prop where
  whole : text = left ++ piece ++ right
  found : (split text)[index]? = some piece
  earlier : split left = (split text).take index ++ [""]

theorem exists_pieceAt {text piece : String} {index : Nat}
    (found : (split text)[index]? = some piece) :
    ∃ left right, PieceAt text index left piece right := by
  have spelled := found
  unfold split at spelled
  rw [List.getElem?_map, Option.map_eq_some_iff] at spelled
  obtain ⟨chars, among, rfl⟩ := spelled
  obtain ⟨left, right, whole, before⟩ := exists_of_splitChars among
  refine ⟨.ofList left, .ofList right, ?_, found, ?_⟩
  · rw [← String.ofList_append, ← String.ofList_append, ← whole, String.ofList_toList]
  · unfold split
    dsimp only
    rw [String.toList_ofList, before, List.map_append, List.map_take]
    rfl

/-- A piece begins where the pieces before it and their separators end. -/
theorem PieceAt.size_eq {text left piece right : String} {index : Nat}
    (place : PieceAt text index left piece right) :
    left.utf8ByteSize = extent ((split text).take index) := by
  have size := extent_split left
  rw [place.earlier, byteLength_toList] at size
  simp only [extent, List.map_append, List.sum_append] at size ⊢
  exact (Nat.add_right_cancel size).symm

theorem splitChars_of_forall {chars : List Char}
    (uncut : ∀ char ∈ chars, isSeparator char = false) : splitChars chars = (chars, []) := by
  induction chars with
  | nil => rfl
  | cons char chars ih =>
    obtain ⟨head, tail⟩ := List.forall_mem_cons.mp uncut
    simp only [splitChars, head, ih tail, Bool.false_eq_true, if_false]

/-- A text without a separator is its only piece. -/
theorem split_of_forall {text : String} (uncut : ∀ char ∈ text.toList, isSeparator char = false) :
    split text = [text] := by
  unfold split
  rw [splitChars_of_forall uncut]
  exact congrArg (fun piece => [piece]) String.ofList_toList

/-! ## Errors of a batch -/

variable {σ : Type} [Source σ] {session after : Session σ}

theorem parse_of_rollPiece {start : Nat} {piece : String} {unread : ParseError}
    (failed : rollPiece start piece session = .error (.parse unread) after) :
    ∃ own, Expression.parse piece = .error own ∧ unread = own.shift start := by
  cases parsed : Expression.parse piece with
  | error own =>
    rw [rollPiece_of_error parsed] at failed
    cases failed
    exact ⟨own, rfl, rfl⟩
  | ok expression =>
    rw [rollPiece_of_ok parsed] at failed
    obtain ⟨_, _, other⟩ := adaptExcept_eq_error_iff.mp failed
    cases other

/-- A reading error is that of the piece with the reported index, behind the pieces before it. -/
theorem parse_of_roll {text : String} {error : Error} {unread : ParseError}
    (failed : roll text session = .error error after) (cause : error.cause = .parse unread) :
    ∃ piece own, (split text)[error.place]? = some piece ∧
      Expression.parse piece = .error own ∧
      unread = own.shift (extent ((split text).take error.place)) := by
  have whole := congrFun (rollPieces_split 0 0 text) session
  rw [adaptExcept_eq_error_iff.mpr ⟨error, failed, rfl⟩] at whole
  obtain ⟨before, piece, source, between, same, found, alone⟩ := exists_of_rollPieces whole
  rw [Error.behind, Error.shift_zero, cause, Nat.zero_add, Nat.zero_add] at same
  obtain ⟨rfl, rfl⟩ := Error.batch.inj same
  rw [Nat.zero_add] at alone
  obtain ⟨own, parsed, moved⟩ := parse_of_rollPiece alone
  exact ⟨piece, own, found, parsed, moved⟩

/-- An error of reading has its place in the whole text, whatever stands before the piece that
failed. The place begins and ends between characters of the text, quotes what stands there, and lies
in the piece that has the reported index, which is the whole text where there is no separator. The
error quotes nothing exactly if a piece ended where something was expected, and then its place is
the end of that piece. -/
theorem roll_parse_error_span {text : String} {error : Error} {unread : ParseError}
    (failed : roll text session = .error error after) (cause : error.cause = .parse unread) :
    unread.span.start ≤ unread.span.stop ∧ unread.span.stop ≤ text.utf8ByteSize ∧
      unread.span.Marks text unread.slice ∧
      ∃ left piece right, PieceAt text error.place left piece right ∧
        left.utf8ByteSize ≤ unread.span.start ∧
        unread.span.stop ≤ (left ++ piece).utf8ByteSize ∧
        ((∀ char ∈ text.toList, ¬ (char = ',' ∨ char = ';')) → piece = text) ∧
        (unread.slice = "" ↔ ∃ expected, unread.cause = .unexpectedToken none expected) ∧
        (unread.slice = "" →
          unread.span = ⟨(left ++ piece).utf8ByteSize, (left ++ piece).utf8ByteSize⟩) := by
  obtain ⟨piece, own, found, parsed, rfl⟩ := parse_of_roll failed cause
  obtain ⟨left, right, place⟩ := exists_pieceAt found
  obtain ⟨before, behind, quotes⟩ := Expression.exists_quotes_of_parse parsed
  have span : (own.shift (extent ((split text).take error.place))).span =
      .after (left ++ before) own.slice := by
    rw [← place.size_eq, ParseError.shift, quotes.span_eq, Span.shift_after]
  have whole : text = left ++ before ++ own.slice ++ (behind ++ right) := by
    rw [place.whole, quotes.whole]
    simp only [String.append_assoc]
  have size : (left ++ piece).utf8ByteSize =
      (left ++ before ++ own.slice).utf8ByteSize + behind.utf8ByteSize := by
    rw [quotes.whole]
    simp only [String.utf8ByteSize_append, Nat.add_assoc]
  have marks := Span.marks_after whole
  rw [span]
  refine ⟨marks.le.1, marks.le.2, marks, left, piece, right, place, ?_, ?_, fun uncut => ?_,
    quotes.slice_eq_empty_iff, fun empty => ?_⟩
  · rw [Span.after, String.utf8ByteSize_append]
    exact Nat.le_add_right _ _
  · rw [size]
    exact Nat.le_add_right _ _
  · have alone : split text = [text] := split_of_forall fun char member =>
      Bool.eq_false_iff.mpr fun ends => uncut char member (isSeparator_iff.mp ends)
    rw [alone, List.getElem?_singleton] at found
    split at found
    · exact (Option.some.inj found).symm
    · cases found
  · rw [size, quotes.at_end empty, Span.after, show own.slice = "" from empty]
    simp only [String.append_empty, String.utf8ByteSize_empty, Nat.add_zero]

/-- A stray letter of two bytes in the second piece is marked behind four bytes. -/
theorem roll_parse_error_span_stray :
    let stray : ParseError := ⟨.strayText [.integer, .dice, .leftParen], ⟨4, 6⟩, "é"⟩
    ∃ after, roll "2;3+é" (Session.start none Loaded.highest) =
        .error (.batch 1 (.parse stray)) after ∧
      stray.span.Marks "2;3+é" "é" := by
  intro stray
  have pieces : split "2;3+é" = ["2", "3+é"] := by decide +kernel
  have parsed : Expression.parse "2" = .ok ⟨"2", .int ⟨2, by decide, by decide⟩⟩ := by
    decide +kernel
  have unread : Expression.parse "3+é" = .error ⟨stray.cause, ⟨2, 4⟩, "é"⟩ := by decide +kernel
  have failed : ∃ after, roll "2;3+é" (Session.start none Loaded.highest) =
      .error (.batch 1 (.parse stray)) after := by
    rw [roll_of_length_ne (by rw [pieces]; decide), pieces]
    simp only [rollPieces, rollPiece_of_ok parsed, rollPiece_of_error unread]
    exact ⟨_, rfl⟩
  obtain ⟨after, failed⟩ := failed
  exact ⟨after, failed, (roll_parse_error_span failed rfl).2.2.1⟩

end Batch

end Tabletop
