import Tabletop.Console
import Tabletop.Proofs.Alike
import Tabletop.Proofs.Batch
import Tabletop.Proofs.Limit

/-!
# Lines of the console

The console carries one session from line to line, yet a line is answered as if it were the first:
of all that the lines before it have done, only the faces they drew are gone. So the console writes
what a fresh session would write for each line, up to the first line that cannot be read.
-/

namespace Tabletop

open Stateful

variable {σ : Type}

/-! ## Sessions with the same source -/

/-- The sessions have this limit and the same source. They may have counted other dice and recorded
other events. -/
structure Session.Matched (limit : Option Nat) (session other : Session σ) : Prop where
  source_eq : other.source = session.source
  limit_eq : session.limit = limit
  other_limit_eq : other.limit = limit

theorem Session.Matched.of_alike {limit : Option Nat} {session other : Session σ}
    (alike : session.Alike other) (limit_eq : session.limit = limit) :
    session.Matched limit other :=
  ⟨alike.source_eq, limit_eq, alike.limit_eq.trans limit_eq⟩

variable [Source σ]

/-- The dice of an expression are counted from zero, whatever was counted before. -/
theorem Expression.respects_roll (limit : Option Nat) (expression : Expression) :
    Respects (Session.Matched limit) (expression.roll : RollM σ Roll) := by
  intro session other matched
  have start : Session.Alike { session with counted := 0 } { other with counted := 0 } :=
    ⟨matched.source_eq, matched.other_limit_eq.trans matched.limit_eq.symm, rfl⟩
  cases done : expression.roll session with
  | ok roll after =>
    obtain ⟨text, rolls⟩ := roll_eq_ok_iff.mp done
    obtain ⟨otherAfter, otherRolls, alike⟩ := rolls.alike start
    rw [roll_eq_ok_iff.mpr ⟨text, otherRolls⟩]
    exact .ok (.of_alike alike (rolls.draws.limit_eq.trans matched.limit_eq))
  | error error after =>
    have fails := roll_eq_error_iff.mp done
    obtain ⟨otherAfter, otherFails, alike⟩ := fails.alike start
    obtain ⟨_, _, _, draws, _⟩ := fails.draws
    rw [roll_eq_error_iff.mpr otherFails]
    exact .error (.of_alike alike (draws.limit_eq.trans matched.limit_eq))

namespace Batch

theorem respects_rollPiece (limit : Option Nat) (start : Nat) (piece : String) :
    Respects (Session.Matched limit) (rollPiece start piece : BatchM σ Roll) := by
  unfold rollPiece
  split
  · exact .throw _
  · exact (Expression.respects_roll limit _).adaptExcept _

theorem respects_rollPieces (limit : Option Nat) (index start : Nat) (pieces : List String) :
    Respects (Session.Matched limit) (rollPieces index start pieces : BatchM σ (List Roll)) := by
  induction pieces generalizing index start with
  | nil => exact .pure []
  | cons piece pieces ih =>
    refine ((respects_rollPiece limit start piece).adaptExcept _).bind fun roll => ?_
    exact (ih _ _).bind fun rolls => .pure _

/-- A batch is rolled alike in sessions with the same source and the same limit. -/
theorem respects_roll (limit : Option Nat) (text : String) :
    Respects (Session.Matched limit) (roll text : BatchM σ (List Roll)) := by
  unfold roll
  split
  · exact (respects_rollPiece limit 0 _).bind fun roll => .pure _
  · exact respects_rollPieces limit 0 0 _

end Batch

namespace Console

/-! ## Lines -/

/-- How a line can end: a carriage return before the line feed is part of the end. -/
inductive Ends (content : List UInt8) : List UInt8 → Prop where
  | lineFeed (plain : content.getLast? ≠ some 13) : Ends content [10]
  | returned : Ends content [13, 10]

/-- The lines that can be read from an input. Nothing is read from the first one on that is not
valid UTF-8. The last line may go without an end. -/
inductive Reads : List UInt8 → List String → Prop where
  | nothing : Reads [] []
  | line {content ending rest : List UInt8} {text : String} {lines : List String}
      (single : 10 ∉ content) (ends : Ends content ending)
      (decodes : text.toUTF8 = ⟨content.toArray⟩) (more : Reads rest lines) :
      Reads (content ++ ending ++ rest) (text :: lines)
  | last {content : List UInt8} {text : String} (single : 10 ∉ content) (some : content ≠ [])
      (decodes : text.toUTF8 = ⟨content.toArray⟩) : Reads content [text]
  | garbled {content ending rest : List UInt8} (single : 10 ∉ content) (ends : Ends content ending)
      (invalid : ¬ (ByteArray.mk content.toArray).IsValidUTF8) :
      Reads (content ++ ending ++ rest) []
  | garbledLast {content : List UInt8} (single : 10 ∉ content)
      (invalid : ¬ (ByteArray.mk content.toArray).IsValidUTF8) : Reads content []

theorem splitLines_append {body : List UInt8} (single : 10 ∉ body) (rest : List UInt8) :
    splitLines (body ++ 10 :: rest) = (body ++ [10]) :: splitLines rest := by
  induction body with
  | nil => rfl
  | cons byte body ih =>
    obtain ⟨other, single⟩ := not_or.mp (List.mem_cons.not.mp single)
    have inside : byte ≠ lineFeed := Ne.symm other
    rw [List.cons_append, splitLines, if_neg inside, ih single]
    rfl

theorem splitLines_of_not_mem {body : List UInt8} (single : 10 ∉ body) (some : body ≠ []) :
    splitLines body = [body] := by
  induction body with
  | nil => exact absurd rfl some
  | cons byte body ih =>
    obtain ⟨other, single⟩ := not_or.mp (List.mem_cons.not.mp single)
    have inside : byte ≠ lineFeed := Ne.symm other
    rw [splitLines, if_neg inside]
    cases body with
    | nil => rfl
    | cons next body => rw [ih single (List.cons_ne_nil next body)]

theorem trimEnd_of_not_mem {body : List UInt8} (single : 10 ∉ body) : trimEnd body = body := by
  unfold trimEnd
  rw [if_neg]
  intro ended
  exact single (List.mem_of_getLast? ended)

theorem trimEnd_append (body : List UInt8) :
    trimEnd (body ++ [10]) = if body.getLast? = some 13 then body.dropLast else body := by
  unfold trimEnd lineFeed carriageReturn
  rw [if_pos List.getLast?_concat, List.dropLast_concat]

/-- A line that was ended is cut where its end begins. -/
theorem ends_trimEnd (body : List UInt8) :
    ∃ ending, body ++ [10] = trimEnd (body ++ [10]) ++ ending ∧
      Ends (trimEnd (body ++ [10])) ending := by
  rw [trimEnd_append]
  split
  next returned =>
    obtain ⟨content, rfl⟩ := List.getLast?_eq_some_iff.mp returned
    rw [List.dropLast_concat]
    exact ⟨[13, 10], by simp, .returned⟩
  next plain => exact ⟨[10], rfl, .lineFeed plain⟩

theorem mem_of_mem_trimEnd {body : List UInt8} {byte : UInt8}
    (member : byte ∈ trimEnd (body ++ [10])) : byte ∈ body := by
  rw [trimEnd_append] at member
  split at member
  · exact List.mem_of_mem_dropLast member
  · exact member

theorem decodeLine?_eq_some_iff {line : List UInt8} {text : String} :
    decodeLine? line = some text ↔ text.toUTF8 = ⟨(trimEnd line).toArray⟩ := by
  unfold decodeLine? String.fromUTF8?
  constructor
  · intro decoded
    split at decoded
    · cases decoded
      rfl
    · cases decoded
  · intro bytes
    rw [← bytes, String.toUTF8_eq_toByteArray, dif_pos text.isValidUTF8]
    rfl

theorem decodeLine?_eq_none_iff {line : List UInt8} :
    decodeLine? line = none ↔ ¬ (ByteArray.mk (trimEnd line).toArray).IsValidUTF8 := by
  unfold decodeLine? String.fromUTF8?
  split
  next valid => exact iff_of_false nofun (not_not_intro valid)
  next invalid => exact iff_of_true rfl invalid

/-- The lines that are read depend on the first line alone and on the input behind it. -/
theorem readLines_of_splitLines {input rest line : List UInt8}
    (cut : splitLines input = line :: splitLines rest) :
    readLines input = match decodeLine? line with
      | some text => text :: readLines rest
      | none => [] := by
  unfold readLines
  rw [cut, List.map_cons]
  cases decodeLine? line with
  | none => rfl
  | some text => rfl

/-- The console reads the lines of its input. -/
theorem reads_readLines (input : List UInt8) : Reads input (readLines input) := by
  induction length : input.length using Nat.strongRecOn generalizing input with
  | ind n ih =>
    by_cases feed : (10 : UInt8) ∈ input
    · obtain ⟨body, rest, rfl, single⟩ := List.eq_append_cons_of_mem feed
      obtain ⟨ending, whole, ends⟩ := ends_trimEnd body
      have clear : 10 ∉ trimEnd (body ++ [10]) := fun member => single (mem_of_mem_trimEnd member)
      rw [readLines_of_splitLines (splitLines_append single rest)]
      have parts : body ++ 10 :: rest = trimEnd (body ++ [10]) ++ ending ++ rest := by
        rw [← whole, List.append_assoc]
        rfl
      rw [parts]
      cases decoded : decodeLine? (body ++ [10]) with
      | none => exact .garbled clear ends (decodeLine?_eq_none_iff.mp decoded)
      | some text =>
        have shorter : rest.length < n := by
          rw [← length, List.length_append, List.length_cons]
          omega
        exact .line clear ends (decodeLine?_eq_some_iff.mp decoded) (ih _ shorter rest rfl)
    · by_cases some : input = []
      · subst some
        exact .nothing
      · rw [@readLines_of_splitLines input [] input (splitLines_of_not_mem feed some)]
        have plain := trimEnd_of_not_mem feed
        cases decoded : decodeLine? input with
        | none => exact .garbledLast feed (plain ▸ decodeLine?_eq_none_iff.mp decoded)
        | some text => exact .last feed some (plain ▸ decodeLine?_eq_some_iff.mp decoded)

/-! ## Answers -/

/-- What is written for these lines, with dice from this source. A line with something on it is
rolled in a fresh session with a limit of 1000 dice; the next line takes its faces from where this
one has left the source. -/
inductive Serves (style : Style) : σ → List String → String → String → Prop where
  | done {source : σ} : Serves style source [] "" ""
  | blank {source : σ} {line output errors : String} {lines : List String}
      (blank : ∀ char ∈ line.toList, Text.isBlank char = true)
      (more : Serves style source lines output errors) :
      Serves style source (line :: lines) ("> " ++ output) errors
  | rolled {source : σ} {line output errors : String} {lines : List String} {rolls : List Roll}
      {after : Session σ} (visible : ∃ char ∈ line.toList, Text.isBlank char = false)
      (rolled : Batch.roll line (Session.start (some 1000) source) = .ok rolls after)
      (more : Serves style after.source lines output errors) :
      Serves style source (line :: lines)
        (String.join (rolls.map fun roll => roll.render style ++ "\n") ++ "> " ++ output) errors
  | failed {source : σ} {line output errors : String} {lines : List String} {error : Error}
      {after : Session σ} (visible : ∃ char ∈ line.toList, Text.isBlank char = false)
      (failed : Batch.roll line (Session.start (some 1000) source) = .error error after)
      (more : Serves style after.source lines output errors) :
      Serves style source (line :: lines) ("> " ++ output)
        ("Error: " ++ error.message ++ "\n" ++ errors)

section

variable {style : Style} {line : String} {session after : Session σ}

theorem answer_of_blank (blank : isBlankLine line = true) :
    answer style line session = (.rolls [], session) :=
  if_pos blank

theorem answer_of_ok {rolls : List Roll} (visible : ¬ isBlankLine line = true)
    (rolled : Batch.roll line session = .ok rolls after) :
    answer style line session = (.rolls (rolls.map (·.render style)), after) := by
  unfold answer
  rw [if_neg visible, rolled]

theorem answer_of_error {error : Error} (visible : ¬ isBlankLine line = true)
    (failed : Batch.roll line session = .error error after) :
    answer style line session = (.complaint error, after) := by
  unfold answer
  rw [if_neg visible, failed]

end

/-- A console answers lines from any session with its limit as it would from a fresh one. -/
theorem serves_answerAll (style : Style) (lines : List String) {session : Session σ}
    (limit : session.limit = some 1000) :
    Serves style session.source lines
      (String.join ((answerAll style lines session).map Reply.output))
      (String.join ((answerAll style lines session).map Reply.errorOutput)) := by
  induction lines generalizing session with
  | nil => exact .done
  | cons line lines ih =>
    have start : Session.Matched (some 1000) session (.start (some 1000) session.source) :=
      ⟨rfl, limit, rfl⟩
    have fresh := @Batch.respects_roll σ _ (some 1000) line
    rw [answerAll]
    by_cases blank : isBlankLine line = true
    · rw [answer_of_blank blank]
      simp only [List.map_cons, String.join_cons, Reply.output, Reply.errorOutput, List.map_nil,
        String.join_nil, String.empty_append]
      exact .blank (List.all_eq_true.mp blank) (ih limit)
    have visible : ∃ char ∈ line.toList, Text.isBlank char = false := by
      simpa [isBlankLine] using blank
    cases rolled : Batch.roll line session with
    | ok rolls after =>
      obtain ⟨_, freshRolled, next⟩ := fresh.ok start rolled
      rw [answer_of_ok blank rolled]
      simp only [List.map_cons, String.join_cons, Reply.output, Reply.errorOutput, List.map_map,
        String.empty_append]
      exact .rolled visible freshRolled (next.source_eq ▸ ih next.limit_eq)
    | error error after =>
      obtain ⟨_, freshFailed, next⟩ := fresh.error start rolled
      rw [answer_of_error blank rolled]
      simp only [List.map_cons, String.join_cons, Reply.output, Reply.errorOutput]
      exact .failed visible freshFailed (next.source_eq ▸ ih next.limit_eq)

/-- The console writes a prompt, and then for each line that it can read what a fresh session would
give for it and the next prompt. It ends well whatever it has read. -/
theorem transcript_serves (arguments : List String) (input : List UInt8) (source : σ) :
    ∃ lines output errors, Reads input lines ∧
      Serves (if "--markdown" ∈ arguments then .markdown else .plain) source lines output errors ∧
      transcript arguments input source = ⟨0, "> " ++ output, errors⟩ := by
  have style : styleOf arguments = if "--markdown" ∈ arguments then .markdown else .plain := by
    unfold styleOf markdownOption
    simp only [List.contains_iff_mem]
  have served := @serves_answerAll σ _ (styleOf arguments) (readLines input) (session source) rfl
  rw [← style]
  exact ⟨readLines input, _, _, reads_readLines input, served, rfl⟩

end Console

end Tabletop
