import Tabletop.Proofs.Cursor
import Tabletop.Proofs.Fragment

/-!
# Dice terms with a plus sign

A dice term can be read from its characters or, as a fragment, from its tokens. Both readers accept
the same texts, blanks at the ends apart, but for one thing: before a number of dice that is written
the first reader takes a plus sign, as numerals have it, and no dice token begins with one.
-/

namespace Tabletop

/-- A numeral with a plus sign is read as the digits behind it. -/
theorem Numeral.read_plus_eq_ok_iff {limit n : Nat} {digits : List Char} :
    read limit ('+' :: digits) = .ok n ↔ Denotes digits n ∧ n ≤ limit := by
  cases digits with
  | nil => exact iff_of_false nofun fun numeral => numeral.1.nonempty rfl
  | cons head rest =>
    have reads : read limit ('+' :: head :: rest) = readDigits limit 0 (head :: rest) := rfl
    rw [reads, readDigits_eq_ok_iff (Nat.zero_le limit)]
    constructor
    · rintro ⟨digits, value, small⟩
      exact ⟨⟨List.cons_ne_nil head rest, digits, value⟩, small⟩
    · rintro ⟨⟨_, digits, value⟩, small⟩
      exact ⟨digits, value, small⟩

namespace Dice

variable {chars : List Char} {dice : Dice}

/-- The characters are a plus sign with a dice term behind it, the number of which is written. -/
inductive Signed : List Char → Dice → Prop where
  | intro {digits after : List Char} {delimiter : Char} {rolls : Tally} {sides : Sides}
      (number : Numeral.Denotes digits rolls.val) (divides : delimiter = 'd' ∨ delimiter = 'D')
      (faces : Sides.Spelled after sides) :
      Signed ('+' :: (digits ++ delimiter :: after)) ⟨rolls, sides⟩

/-- A spelled dice term begins with no plus sign. -/
theorem Spelled.unsigned (spelled : Spelled chars dice) : Unsigned chars := by
  intro plus
  obtain ⟨rest, rfl⟩ := List.head?_eq_some_iff.mp plus
  exact absurd (spelled.isAlphanum '+' List.mem_cons_self) (by decide)

theorem Signed.not_unsigned (signed : Signed chars dice) : ¬ Unsigned chars := by
  cases signed with
  | intro number divides faces => exact fun unsigned => unsigned rfl

theorem readRolls_plus_eq_ok_iff {digits : List Char} {rolls : Tally} :
    readRolls ('+' :: digits) = .ok rolls ↔ Numeral.Denotes digits rolls.val := by
  have within : rolls.val ≤ Tally.highest := rolls.le_highest
  rw [readRolls_eq_ok_iff_tally (List.cons_ne_nil '+' digits), Tally.read_eq_ok_iff_numeral,
    Numeral.read_plus_eq_ok_iff, and_iff_left within]

/-- A dice term is read from its spellings, and from those with a plus sign. -/
theorem ofChars_eq_ok_iff_spelled_or_signed :
    ofChars chars = .ok dice ↔ Spelled chars dice ∨ Signed chars dice := by
  by_cases unsigned : Unsigned chars
  · rw [ofChars_eq_ok_iff unsigned, or_iff_left fun signed => signed.not_unsigned unsigned]
  · rw [or_iff_right fun spelled => unsigned spelled.unsigned, ofChars_eq_ok_iff_divided]
    constructor
    · rintro ⟨before, delimiter, after, rfl, _, divides, number, faces⟩
      cases before with
      | nil =>
        have plus : some delimiter = some '+' := not_not.mp unsigned
        cases plus
        exact absurd divides (by decide)
      | cons head digits =>
        have plus : some head = some '+' := not_not.mp unsigned
        cases plus
        exact .intro (readRolls_plus_eq_ok_iff.mp number) (isDelimiter_iff.mp divides) faces
    · rintro (@⟨digits, after, delimiter, rolls, sides, number, divides, faces⟩)
      refine ⟨'+' :: digits, delimiter, after, rfl, ?_, isDelimiter_iff.mpr divides,
        readRolls_plus_eq_ok_iff.mpr number, faces⟩
      exact List.forall_mem_cons.mpr ⟨rfl, (RollsSpelled.numeral number).clear⟩

/-- Without blanks at its ends, a text is a dice term as a fragment exactly if it spells one. -/
theorem parse_eq_ok_iff_spelled {text : String}
    (starts : ∀ char ∈ text.toList.head?, char.isWhitespace = false)
    (ends : ∀ char ∈ text.toList.getLast?, char.isWhitespace = false) :
    Fragment.parse Fragment.dice text = .ok dice ↔ Spelled text.toList dice := by
  rw [Fragment.parse_dice_eq_ok_iff]
  constructor
  · rintro ⟨token, single, isDice⟩
    obtain ⟨ending, whole, isBlank⟩ := Token.exists_of_scan_eq_singleton single starts
    rcases List.eq_nil_or_concat' ending with rfl | ⟨blanks, last, rfl⟩
    · rw [whole, List.append_nil]
      exact isDice.spelled
    · have isLast : last ∈ text.toList.getLast? := by
        rw [whole, ← List.append_assoc, List.getLast?_concat]
        rfl
      have blank := isBlank last (List.mem_append_right blanks (List.mem_singleton_self last))
      rw [ends last isLast] at blank
      cases blank
  · intro spelled
    have isDice : Token.IsDice ⟨[], .dice, text.toList⟩ dice := ⟨rfl, spelled⟩
    have single := isDice.standsAlone.scan_eq Token.nil_blanks
    rw [List.append_nil] at single
    exact ⟨_, single, isDice⟩

/-- Without blanks at its ends, a text is the same dice term for both readers, or for neither,
unless it has a plus sign before that term. -/
theorem read_agrees_iff {text : String}
    (starts : ∀ char ∈ text.toList.head?, char.isWhitespace = false)
    (ends : ∀ char ∈ text.toList.getLast?, char.isWhitespace = false) (dice : Dice) :
    (read text = .ok dice ↔ Fragment.parse Fragment.dice text = .ok dice) ↔
      ¬ Signed text.toList dice := by
  rw [parse_eq_ok_iff_spelled starts ends, read, ofChars_eq_ok_iff_spelled_or_signed]
  constructor
  · intro agree signed
    exact signed.not_unsigned (agree.mp (.inr signed)).unsigned
  · exact fun unsigned => or_iff_left unsigned

/-- Zeros before a number change nothing for either reader. -/
theorem read_agrees_iff_padded :
    let dice : Dice := ⟨⟨7, by decide, by decide⟩, .numbered ⟨4294967295, by decide, by decide⟩⟩
    (∀ char ∈ "007D04294967295".toList.head?, char.isWhitespace = false) ∧
      (∀ char ∈ "007D04294967295".toList.getLast?, char.isWhitespace = false) ∧
      ¬ Signed "007D04294967295".toList dice ∧ read "007D04294967295" = .ok dice ∧
      Fragment.parse Fragment.dice "007D04294967295" = .ok dice := by
  intro dice
  have starts : ∀ char ∈ "007D04294967295".toList.head?, char.isWhitespace = false := by
    rintro char ⟨⟩
    rfl
  have ends : ∀ char ∈ "007D04294967295".toList.getLast?, char.isWhitespace = false := by
    rintro char ⟨⟩
    rfl
  have unsigned : Unsigned "007D04294967295".toList := nofun
  have noSign : ¬ Signed "007D04294967295".toList dice := fun signed => signed.not_unsigned unsigned
  have done : read "007D04294967295" = .ok dice := by decide +kernel
  exact ⟨starts, ends, noSign, done, ((read_agrees_iff starts ends dice).mpr noSign).mp done⟩

/-- Three dice with a plus sign before them are read from their characters alone. -/
theorem read_signed :
    let dice : Dice := ⟨⟨3, by decide, by decide⟩, .numbered ⟨6, by decide, by decide⟩⟩
    (∀ char ∈ "+3d6".toList.head?, char.isWhitespace = false) ∧
      (∀ char ∈ "+3d6".toList.getLast?, char.isWhitespace = false) ∧
      ¬ (read "+3d6" = .ok dice ↔ Fragment.parse Fragment.dice "+3d6" = .ok dice) := by
  intro dice
  have done : read "+3d6" = .ok dice := by decide +kernel
  have refused : Fragment.parse Fragment.dice "+3d6" ≠ .ok dice := by decide +kernel
  refine ⟨?_, ?_, fun agree => refused (agree.mp done)⟩
  · rintro char ⟨⟩
    rfl
  · rintro char ⟨⟩
    rfl

end Dice

end Tabletop
