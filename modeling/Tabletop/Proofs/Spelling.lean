import Mathlib
import Tabletop.Reading

/-!
# Spellings

What numerals, sides, dice terms and flag words look like, said apart from the functions that read
them. Each spelling is a relation between characters and the value they stand for. The readers
accept exactly these spellings, as long as no plus sign comes first: tokens never begin with one.
-/

namespace Tabletop

/-- The characters do not begin with a plus sign. -/
def Unsigned (chars : List Char) : Prop :=
  chars.head? ≠ some '+'

/-- The characters are digits, at least one, and their decimal value is `n`. -/
structure Numeral.Denotes (chars : List Char) (n : Nat) : Prop where
  nonempty : chars ≠ []
  digits : ∀ char ∈ chars, char.isDigit = true
  value_eq : Nat.ofDigitChars 10 chars 0 = n

/-- The characters spell the sides of a die. -/
inductive Sides.Spelled : List Char → Sides → Prop where
  | numbered {chars : List Char} {count : Tally} (numeral : Numeral.Denotes chars count.val) :
      Spelled chars (.numbered count)
  | letter {chars : List Char} (lowered : chars.map Char.toLower = ['f']) :
      Spelled chars (.fate true)
  | word {chars : List Char} (lowered : chars.map Char.toLower = ['f', 'a', 't', 'e']) :
      Spelled chars (.fate false)

/-- The characters before the delimiter spell how many dice are rolled; none stand for one. -/
inductive Dice.RollsSpelled : List Char → Tally → Prop where
  | absent : RollsSpelled [] .one
  | numeral {chars : List Char} {rolls : Tally} (numeral : Numeral.Denotes chars rolls.val) :
      RollsSpelled chars rolls

/-- The characters spell a dice term. -/
inductive Dice.Spelled : List Char → Dice → Prop where
  | intro {before after : List Char} {delimiter : Char} {rolls : Tally} {sides : Sides}
      (number : RollsSpelled before rolls) (divides : delimiter = 'd' ∨ delimiter = 'D')
      (faces : Sides.Spelled after sides) :
      Spelled (before ++ delimiter :: after) ⟨rolls, sides⟩

/-- The characters spell the word of a flag, in any case. -/
def FlagWord.Spelled (chars : List Char) (word : FlagWord) : Prop :=
  chars.map Char.toLower = word.literal.toList

/-! ## Numerals -/

namespace Numeral

/-- Without a plus sign a numeral is read digit by digit. -/
theorem read_of_unsigned {limit : Nat} {chars : List Char} (nonempty : chars ≠ [])
    (unsigned : Unsigned chars) : read limit chars = readDigits limit 0 chars := by
  obtain ⟨head, rest, rfl⟩ := List.exists_cons_of_ne_nil nonempty
  have other : head ≠ '+' := fun equal => unsigned (by rw [equal]; rfl)
  unfold read
  split
  · contradiction
  next equal => exact absurd (List.cons.inj equal).1 other
  next equal => exact absurd (List.cons.inj equal).1 other
  · rfl

theorem read_eq_ok_iff {limit n : Nat} {chars : List Char} (unsigned : Unsigned chars) :
    read limit chars = .ok n ↔ Denotes chars n ∧ n ≤ limit := by
  by_cases empty : chars = []
  · subst empty
    constructor
    · intro impossible
      cases impossible
    · rintro ⟨numeral, _⟩
      exact absurd rfl numeral.nonempty
  · rw [read_of_unsigned empty unsigned, readDigits_eq_ok_iff (Nat.zero_le limit)]
    constructor
    · rintro ⟨digits, value, small⟩
      exact ⟨⟨empty, digits, value⟩, small⟩
    · rintro ⟨⟨_, digits, value⟩, small⟩
      exact ⟨digits, value, small⟩

/-- Digits are no plus sign. -/
theorem Denotes.unsigned {chars : List Char} {n : Nat} (numeral : Denotes chars n) :
    Unsigned chars := by
  obtain ⟨head, rest, rfl⟩ := List.exists_cons_of_ne_nil numeral.nonempty
  have digit := numeral.digits head List.mem_cons_self
  intro plus
  rw [Option.some.inj plus] at digit
  exact absurd digit (by decide)

end Numeral

/-- A tally is read as a numeral is. -/
theorem Tally.read_eq_ok_iff_numeral {chars : List Char} {tally : Tally} :
    Tally.read chars = .ok tally ↔ Numeral.read highest chars = .ok tally.val := by
  unfold Tally.read
  constructor
  · intro done
    split at done
    · cases done
    next n numeral =>
      split at done
      next found =>
        cases done
        rw [ofNat?_eq_some_iff.mp found]
        exact numeral
      · cases done
  · intro numeral
    rw [numeral]
    simp only [ofNat?_val]

/-- A tally is read from exactly the numerals of its value. -/
theorem Tally.read_eq_ok_iff {chars : List Char} {tally : Tally} (unsigned : Unsigned chars) :
    Tally.read chars = .ok tally ↔ Numeral.Denotes chars tally.val := by
  have within : tally.val ≤ highest := tally.le_highest
  rw [read_eq_ok_iff_numeral, Numeral.read_eq_ok_iff unsigned, and_iff_left within]

/-! ## Letters and digits -/

namespace Text

theorem isAlphanum_of_isDigit {char : Char} (digit : char.isDigit = true) :
    char.isAlphanum = true := by
  rw [Char.isAlphanum, digit, Bool.or_true]

theorem isAlphanum_of_isAlpha {char : Char} (letter : char.isAlpha = true) :
    char.isAlphanum = true := by
  rw [Char.isAlphanum, letter, Bool.true_or]

theorem isDigit_eq_false_of_isAlpha {char : Char} (letter : char.isAlpha = true) :
    char.isDigit = false := by
  simp only [Char.isAlpha, Char.isUpper, Char.isLower, Char.isDigit, UInt32.le_iff_toNat_le,
    ge_iff_le, Bool.or_eq_true, Bool.and_eq_true, decide_eq_true_eq, Bool.and_eq_false_iff,
    decide_eq_false_iff_not] at letter ⊢
  change (65 ≤ _ ∧ _ ≤ 90) ∨ (97 ≤ _ ∧ _ ≤ 122) at letter
  change ¬ 48 ≤ _ ∨ ¬ _ ≤ 57
  omega

/-- A character that lowers to a letter is a letter. -/
theorem isAlpha_of_toLower_eq {char lower : Char} (same : char.toLower = lower)
    (letter : lower.isAlpha = true) : char.isAlpha = true := by
  rw [← Char.isAlpha_toLower_eq_isAlpha, same]
  exact letter

/-- A lower case letter is what it and its upper case form lower to. -/
theorem toLower_eq_iff {char lower : Char} (isLower : lower.isLower = true) :
    char.toLower = lower ↔ char = lower ∨ char = lower.toUpper := by
  constructor
  · intro lowered
    by_cases upper : char.isUpper = true
    · have raised := Char.toUpper_toLower_eq_toUpper char
      rw [lowered, Char.toUpper_eq_of_not_isLower (Char.not_isLower_of_isUpper upper)] at raised
      exact .inr raised.symm
    · rw [Char.toLower_eq_of_not_isUpper upper] at lowered
      exact .inl lowered
  · have fixed := Char.toLower_eq_of_not_isUpper (Char.not_isUpper_of_isLower isLower)
    rintro (rfl | rfl)
    · exact fixed
    · rw [Char.toLower_toUpper_eq_toLower, fixed]

/-- A character that lowers to something else than a letter is that itself. -/
theorem eq_of_toLower_eq {char lower : Char} (same : char.toLower = lower)
    (other : lower.isAlpha = false) : char = lower := by
  have notUpper : ¬ char.isUpper = true := by
    intro upper
    have letter : char.isAlpha = true := by
      rw [Char.isAlpha, upper, Bool.true_or]
    rw [← Char.isAlpha_toLower_eq_isAlpha, same, other] at letter
    cases letter
  rw [← same, Char.toLower_eq_of_not_isUpper notUpper]

/-- Characters that lower to letters are letters. -/
theorem isAlpha_of_lowered {chars word : List Char} (lowered : chars.map Char.toLower = word)
    (letters : word.all Char.isAlpha = true) : ∀ char ∈ chars, char.isAlpha = true := by
  intro char member
  have image : char.toLower ∈ word := lowered ▸ List.mem_map_of_mem member
  exact isAlpha_of_toLower_eq rfl (List.all_eq_true.mp letters _ image)

end Text

/-- Digits do not spell a word. -/
theorem Numeral.Denotes.lowered_ne {chars word : List Char} {n : Nat}
    (numeral : Numeral.Denotes chars n) (letters : word.all Char.isAlpha = true) :
    chars.map Char.toLower ≠ word := by
  intro lowered
  obtain ⟨head, member⟩ := List.exists_mem_of_ne_nil chars numeral.nonempty
  have digit := numeral.digits head member
  rw [Text.isDigit_eq_false_of_isAlpha (Text.isAlpha_of_lowered lowered letters head member)]
    at digit
  cases digit

/-! ## Sides and dice -/

/-- Sides are read from exactly their spellings. -/
theorem Sides.ofChars_eq_ok_iff {chars : List Char} {sides : Sides} :
    ofChars chars = .ok sides ↔ Spelled chars sides := by
  unfold ofChars
  constructor
  · intro done
    split at done
    next lowered => cases done; exact .letter lowered
    split at done
    next lowered => cases done; exact .word lowered
    split at done
    next shape =>
      have unsigned : Unsigned chars := by
        intro plus
        obtain ⟨rest, rfl⟩ := List.head?_eq_some_iff.mp plus
        simp at shape
      split at done
      next count numeral =>
        cases done
        exact .numbered ((Tally.read_eq_ok_iff unsigned).mp numeral)
      · cases done
      · cases done
    · cases done
  · intro spelled
    cases spelled with
    | numbered numeral =>
      have shape : chars ≠ [] ∧ chars.all Char.isDigit = true :=
        ⟨numeral.nonempty, List.all_eq_true.mpr numeral.digits⟩
      rw [if_neg (numeral.lowered_ne (by decide)), if_neg (numeral.lowered_ne (by decide)),
        if_pos shape, (Tally.read_eq_ok_iff numeral.unsigned).mpr numeral]
    | letter lowered => rw [if_pos lowered]
    | word lowered =>
      rw [if_neg (by rw [lowered]; decide), if_pos lowered]

theorem Sides.Spelled.ne_nil {chars : List Char} {sides : Sides} (spelled : Spelled chars sides) :
    chars ≠ [] := by
  cases spelled with
  | numbered numeral => exact numeral.nonempty
  | letter lowered | word lowered =>
    rintro rfl
    cases lowered

/-- If the number of dice is written, it is read as a tally. -/
theorem Dice.readRolls_eq_ok_iff_tally {chars : List Char} {rolls : Tally} (written : chars ≠ []) :
    readRolls chars = .ok rolls ↔ Tally.read chars = .ok rolls := by
  unfold readRolls
  rw [if_neg written]
  cases Tally.read chars with
  | ok found => simp only [Except.ok.injEq]
  | error fault => cases fault <;> exact iff_of_false nofun nofun

/-- The number of dice is read from exactly its spellings. -/
theorem Dice.readRolls_eq_ok_iff {chars : List Char} {rolls : Tally} (unsigned : Unsigned chars) :
    readRolls chars = .ok rolls ↔ RollsSpelled chars rolls := by
  by_cases empty : chars = []
  · subst empty
    constructor
    · intro done
      cases done
      exact .absent
    · rintro (_ | numeral)
      · rfl
      · exact absurd rfl numeral.nonempty
  · rw [readRolls_eq_ok_iff_tally empty, Tally.read_eq_ok_iff unsigned]
    constructor
    · exact .numeral
    · rintro (_ | numeral)
      · exact absurd rfl empty
      · exact numeral

/-- What stands before the delimiter of a dice term is digits. -/
theorem Dice.RollsSpelled.digits {chars : List Char} {rolls : Tally}
    (spelled : RollsSpelled chars rolls) : ∀ char ∈ chars, char.isDigit = true := by
  cases spelled with
  | absent => exact nofun
  | numeral numeral => exact numeral.digits

theorem Dice.isAlpha_of_isDelimiter {char : Char} (divides : isDelimiter char = true) :
    char.isAlpha = true := by
  rcases isDelimiter_iff.mp divides with rfl | rfl <;> decide

/-- The delimiter of a dice term may be written in either case. -/
theorem Dice.isDelimiter_iff_toLower {char : Char} :
    isDelimiter char = true ↔ char.toLower = 'd' := by
  rw [Text.toLower_eq_iff (by decide), show 'd'.toUpper = 'D' from rfl]
  exact isDelimiter_iff

theorem Dice.isDelimiter_eq_false_of_isDigit {char : Char} (digit : char.isDigit = true) :
    isDelimiter char = false := by
  by_contra divides
  rw [Bool.not_eq_false] at divides
  rw [Text.isDigit_eq_false_of_isAlpha (isAlpha_of_isDelimiter divides)] at digit
  cases digit

/-- A text is divided at its first delimiter. -/
theorem Dice.ofChars_of_divided {before after : List Char} {delimiter : Char}
    (clear : ∀ char ∈ before, isDelimiter char = false) (divides : isDelimiter delimiter = true) :
    ofChars (before ++ delimiter :: after) = do
      let rolls ← readRolls before
      return ⟨rolls, ← readSides after⟩ := by
  have passes : ∀ char ∈ before, (!isDelimiter char) = true := by
    intro char member
    rw [clear char member]
    rfl
  have stops : ¬ (!isDelimiter delimiter) = true := by
    rw [divides]
    decide
  unfold ofChars
  rw [List.dropWhile_append_of_pos passes, List.dropWhile_cons_of_neg (p := (!isDelimiter ·)) stops,
    List.takeWhile_append_of_pos passes, List.takeWhile_cons_of_neg (p := (!isDelimiter ·)) stops,
    List.append_nil]

/-- A dice term is read exactly if the parts before and behind its first delimiter are. -/
theorem Dice.ofChars_eq_ok_iff_divided {chars : List Char} {dice : Dice} :
    ofChars chars = .ok dice ↔ ∃ before delimiter after, chars = before ++ delimiter :: after ∧
      (∀ char ∈ before, isDelimiter char = false) ∧ isDelimiter delimiter = true ∧
      readRolls before = .ok dice.rolls ∧ Sides.Spelled after dice.sides := by
  constructor
  · intro done
    have parts := List.takeWhile_append_dropWhile (p := (!isDelimiter ·)) (l := chars)
    cases tail : chars.dropWhile (!isDelimiter ·) with
    | nil => simp [ofChars, tail] at done
    | cons delimiter after =>
      rw [tail] at parts
      have clear : ∀ char ∈ chars.takeWhile (!isDelimiter ·), isDelimiter char = false := by
        intro char member
        simpa using List.mem_takeWhile_imp member
      have divides : isDelimiter delimiter = true := by
        have stop := List.head?_dropWhile_not (!isDelimiter ·) chars
        simpa [tail] using stop
      generalize chars.takeWhile (!isDelimiter ·) = before at parts clear
      subst parts
      rw [ofChars_of_divided clear divides] at done
      cases number : readRolls before with
      | error fault => rw [number] at done; cases done
      | ok rolls =>
        cases faces : Sides.ofChars after with
        | error fault => simp [number, readSides, faces, Except.mapError, bind, Except.bind] at done
        | ok sides =>
          have equal : dice = ⟨rolls, sides⟩ := by
            simpa [number, readSides, faces, Except.mapError, bind, Except.bind, pure,
              Except.pure, eq_comm] using done
          rw [equal]
          exact ⟨before, delimiter, after, rfl, clear, divides, number,
            Sides.ofChars_eq_ok_iff.mp faces⟩
  · rintro ⟨before, delimiter, after, rfl, clear, divides, number, faces⟩
    rw [ofChars_of_divided clear divides, number]
    simp only [readSides, Sides.ofChars_eq_ok_iff.mpr faces]
    rfl

/-- Digits are no delimiter. -/
theorem Dice.RollsSpelled.clear {chars : List Char} {rolls : Tally}
    (spelled : RollsSpelled chars rolls) : ∀ char ∈ chars, isDelimiter char = false :=
  fun char member => isDelimiter_eq_false_of_isDigit (spelled.digits char member)

/-- Without a plus sign a dice term is read from exactly its spellings. -/
theorem Dice.ofChars_eq_ok_iff {chars : List Char} {dice : Dice} (unsigned : Unsigned chars) :
    ofChars chars = .ok dice ↔ Spelled chars dice := by
  have start : ∀ before delimiter after, chars = before ++ delimiter :: after →
      Unsigned before := by
    rintro (_ | ⟨head, rest⟩) delimiter after rfl
    · exact nofun
    · exact unsigned
  rw [ofChars_eq_ok_iff_divided]
  constructor
  · rintro ⟨before, delimiter, after, whole, _, divides, number, faces⟩
    rw [whole]
    exact .intro ((readRolls_eq_ok_iff (start _ _ _ whole)).mp number)
      (isDelimiter_iff.mp divides) faces
  · rintro (@⟨before, after, delimiter, rolls, sides, number, divides, faces⟩)
    exact ⟨before, delimiter, after, rfl, number.clear, isDelimiter_iff.mpr divides,
      (readRolls_eq_ok_iff (start _ _ _ rfl)).mpr number, faces⟩

/-! ## Words of flags -/

/-- A word is read from exactly its spellings. -/
theorem FlagWord.ofChars?_eq_some_iff {chars : List Char} {word : FlagWord} :
    ofChars? chars = some word ↔ Spelled chars word := by
  unfold ofChars? Spelled
  constructor
  · intro found
    have same := List.find?_some found
    exact (of_decide_eq_true same).symm
  · intro lowered
    rw [lowered]
    cases word <;> rfl

/-- A word is its mark with letters behind it. -/
theorem FlagWord.Spelled.letters {chars : List Char} {word : FlagWord}
    (spelled : FlagWord.Spelled chars word) :
    ∃ letters, chars = '!' :: letters ∧ (∀ char ∈ letters, char.isAlpha = true) ∧ letters ≠ [] := by
  obtain ⟨lower, literal, alphabetic, nonempty⟩ : ∃ lower, word.literal.toList = '!' :: lower ∧
      lower.all Char.isAlpha = true ∧ lower ≠ [] := by
    cases word <;> exact ⟨_, rfl, by decide, by decide⟩
  unfold FlagWord.Spelled at spelled
  rw [literal] at spelled
  obtain ⟨mark, letters, rfl, lowerMark, lowered⟩ := List.map_eq_cons_iff.mp spelled
  rw [Text.eq_of_toLower_eq lowerMark (by decide)]
  refine ⟨letters, rfl, Text.isAlpha_of_lowered lowered alphabetic, ?_⟩
  rintro rfl
  exact nonempty lowered.symm

end Tabletop
