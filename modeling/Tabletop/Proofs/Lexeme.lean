import Tabletop.Proofs.Reading

/-!
# What texts begin with

The token at the start of a text depends on what follows it only as far as a letter or a digit could
make it longer. Where neither follows, numerals, dice terms, flags and single signs are tokens of
their own. In the other direction, a token that holds a number never begins with a plus sign, and a
sign is a single character.
-/

namespace Tabletop

/-- The text does not go on with a letter or a digit. -/
def Ends (rest : List Char) : Prop :=
  ∀ char ∈ rest.head?, char.isAlphanum = false

namespace Ends

theorem nil : Ends [] := nofun

theorem cons {char : Char} {rest : List Char} (other : char.isAlphanum = false) :
    Ends (char :: rest) := by
  intro head same
  cases same
  exact other

theorem not_digit {rest : List Char} (ends : Ends rest) :
    ∀ char ∈ rest.head?, char.isDigit = false := by
  intro char head
  have other := ends char head
  rw [Char.isAlphanum, Bool.or_eq_false_iff] at other
  exact other.2

theorem not_alpha {rest : List Char} (ends : Ends rest) :
    ∀ char ∈ rest.head?, char.isAlpha = false := by
  intro char head
  have other := ends char head
  rw [Char.isAlphanum, Bool.or_eq_false_iff] at other
  exact other.1

theorem not_delimiter {rest : List Char} (ends : Ends rest) :
    ∀ char ∈ rest.head?, Dice.isDelimiter char = false := by
  intro char head
  by_contra divides
  have letter := Dice.isAlpha_of_isDelimiter (Bool.not_eq_false _ ▸ divides)
  rw [ends.not_alpha char head] at letter
  cases letter

theorem not_lowered {rest : List Char} (ends : Ends rest) {letter : Char}
    (isLetter : letter.isAlpha = true) : rest.head?.map Char.toLower ≠ some letter := by
  intro next
  obtain ⟨head, first, same⟩ := Option.map_eq_some_iff.mp next
  have alphabetic := Text.isAlpha_of_toLower_eq same isLetter
  rw [ends.not_alpha head first] at alphabetic
  cases alphabetic

end Ends

namespace Token

/-- A run of characters of a class stops before the first one that is not of the class. -/
theorem takeWhile_run {p : Char → Bool} {run rest : List Char}
    (inside : ∀ char ∈ run, p char = true) (stop : ∀ char ∈ rest.head?, p char = false) :
    (run ++ rest).takeWhile p = run := by
  rw [List.takeWhile_append_of_pos inside]
  cases rest with
  | nil => rw [List.takeWhile_nil, List.append_nil]
  | cons char rest =>
    rw [List.takeWhile_cons_of_neg (by rw [stop char rfl]; decide), List.append_nil]

/-! ## Counts at the start of a text -/

theorem digitCount_run {digits rest : List Char} (inside : ∀ char ∈ digits, char.isDigit = true)
    (stop : ∀ char ∈ rest.head?, char.isDigit = false) :
    digitCount (digits ++ rest) = digits.length := by
  unfold digitCount
  rw [takeWhile_run inside stop]

theorem digitCount_eq_zero {chars : List Char} (stop : ∀ char ∈ chars.head?, char.isDigit = false) :
    digitCount chars = 0 :=
  @digitCount_run [] chars nofun stop

/-- Fate sides begin with an `f`. -/
theorem fateCount_eq_zero {chars : List Char}
    (other : ∀ char ∈ chars.head?, char.toLower ≠ 'f') : fateCount chars = 0 := by
  cases chars with
  | nil => rfl
  | cons head rest =>
    have different := other head rfl
    unfold fateCount
    rw [if_neg, if_neg]
    · intro same
      exact different (List.cons.inj same).1
    · intro same
      exact different (List.cons.inj same).1

/-- There is no dice term, cut short or not, where no delimiter follows the digits. -/
theorem diceCount_eq_zero {digits rest : List Char} (inside : ∀ char ∈ digits, char.isDigit = true)
    (stop : ∀ char ∈ rest.head?, char.isDigit = false ∧ Dice.isDelimiter char = false) :
    diceCount (digits ++ rest) = 0 ∧ cutShort (digits ++ rest) = false := by
  unfold diceCount cutShort
  rw [digitCount_run inside fun char head => (stop char head).1, List.drop_left]
  cases rest with
  | nil => exact ⟨rfl, rfl⟩
  | cons char rest =>
    have other := (stop char rfl).2
    simp only [other, Bool.false_eq_true, false_and, if_false, Bool.and_false, Bool.false_and,
      and_self]

theorem fateCount_numeral {digits rest : List Char} {n : Nat}
    (numeral : Numeral.Denotes digits n) : fateCount (digits ++ rest) = 0 := by
  obtain ⟨head, tail, rfl⟩ := List.exists_cons_of_ne_nil numeral.nonempty
  apply fateCount_eq_zero
  intro char same lowered
  cases same
  have digit := numeral.digits head List.mem_cons_self
  have letter := Text.isAlpha_of_toLower_eq lowered (by decide)
  rw [Text.isDigit_eq_false_of_isAlpha letter] at digit
  cases digit

/-- Where no `a` follows, an `f` is the whole of the fate sides. -/
theorem fateCount_letter {char : Char} {rest : List Char} (lower : char.toLower = 'f')
    (other : rest.head?.map Char.toLower ≠ some 'a') : fateCount (char :: rest) = 1 := by
  unfold fateCount
  rw [if_neg, if_pos]
  · rw [List.take_succ_cons, List.take_zero, List.map_cons, lower, List.map_nil]
  · intro word
    apply other
    cases rest with
    | nil => simp at word
    | cons head tail => simp_all

theorem fateCount_word {word rest : List Char}
    (lowered : word.map Char.toLower = ['f', 'a', 't', 'e']) : fateCount (word ++ rest) = 4 := by
  have length : word.length = 4 := by
    rw [← List.length_map Char.toLower, lowered]
    rfl
  unfold fateCount
  rw [if_pos]
  rw [← length, List.take_left, lowered]

/-- No digits stand before fate sides. -/
theorem digitCount_of_lower {char : Char} {rest : List Char} (lower : char.toLower = 'f') :
    digitCount (char :: rest) = 0 := by
  apply digitCount_eq_zero
  intro head same
  cases same
  exact Text.isDigit_eq_false_of_isAlpha (Text.isAlpha_of_toLower_eq lower (by decide))

/-- The sides that a text begins with are counted in full where no letter or digit follows. An `a`
does not follow the abbreviation of fate sides then. -/
theorem sidesCount_run {sides rest : List Char} {faces : Sides}
    (spelled : Sides.Spelled sides faces) (ends : Ends rest) :
    sidesCount (sides ++ rest) = sides.length ∧
      ¬ (fateCount (sides ++ rest) = 1 ∧
        ((sides ++ rest).drop 1).head?.map Char.toLower = some 'a') := by
  unfold sidesCount
  cases spelled with
  | numbered numeral =>
    rw [fateCount_numeral numeral, digitCount_run numeral.digits ends.not_digit, Nat.max_zero]
    exact ⟨rfl, fun cut => absurd cut.1 (by decide)⟩
  | letter lowered =>
    obtain ⟨char, rfl, lower⟩ : ∃ char, sides = [char] ∧ char.toLower = 'f' :=
      List.map_eq_singleton_iff.mp lowered
    have noLetter : rest.head?.map Char.toLower ≠ some 'a' := ends.not_lowered (by decide)
    rw [List.singleton_append, digitCount_of_lower lower, fateCount_letter lower noLetter]
    exact ⟨rfl, fun cut => noLetter cut.2⟩
  | word lowered =>
    obtain ⟨first, others, rfl, lower, tail⟩ := List.map_eq_cons_iff.mp lowered
    have length := congrArg List.length tail
    rw [List.length_map] at length
    rw [fateCount_word lowered, List.cons_append, digitCount_of_lower lower, List.length_cons,
      length]
    exact ⟨rfl, fun cut => absurd cut.1 (by decide)⟩

/-! ## Tokens that stand alone -/

/-- A numeral is an integer where no letter or digit follows. -/
theorem lexeme_numeral {chars rest : List Char} {n : Nat} (numeral : Numeral.Denotes chars n)
    (ends : Ends rest) : lexeme (chars ++ rest) = (.integer, chars.length) := by
  have stop : ∀ char ∈ rest.head?, char.isDigit = false ∧ Dice.isDelimiter char = false :=
    fun char head => ⟨ends.not_digit char head, ends.not_delimiter char head⟩
  obtain ⟨noDice, notCut⟩ := diceCount_eq_zero numeral.digits stop
  have count := digitCount_run numeral.digits ends.not_digit
  have positive := List.length_pos_of_ne_nil numeral.nonempty
  unfold lexeme
  rw [notCut, noDice, count, if_neg (by decide), if_neg (by decide), if_pos positive]

/-- A dice term is a token where no letter or digit follows. -/
theorem lexeme_dice {chars rest : List Char} {term : Dice} (spelled : Dice.Spelled chars term)
    (ends : Ends rest) : lexeme (chars ++ rest) = (.dice, chars.length) := by
  cases spelled with
  | @intro before after delimiter rolls sides number either faces =>
    have divides := Dice.isDelimiter_iff.mpr either
    obtain ⟨sidesLength, notCut⟩ := sidesCount_run faces ends
    have noDigit : ∀ char ∈ (delimiter :: (after ++ rest)).head?, char.isDigit = false := by
      intro char head
      cases head
      exact Text.isDigit_eq_false_of_isAlpha (Dice.isAlpha_of_isDelimiter divides)
    have count := digitCount_run number.digits noDigit
    have someSides : 0 < after.length := List.length_pos_of_ne_nil faces.ne_nil
    rw [List.append_assoc, List.cons_append]
    have whole : cutShort (before ++ delimiter :: (after ++ rest)) = false := by
      unfold cutShort
      rw [count, List.drop_left]
      by_contra cut
      simp only [Bool.not_eq_false, Bool.and_eq_true, decide_eq_true_eq] at cut
      exact notCut ⟨cut.1.2, cut.2⟩
    have length : diceCount (before ++ delimiter :: (after ++ rest)) =
        before.length + 1 + after.length := by
      unfold diceCount
      rw [count, List.drop_left]
      simp only [sidesLength, divides, someSides, and_self, if_true]
    unfold lexeme
    rw [whole, length, if_neg (by decide), if_pos (by omega), List.length_append,
      List.length_cons]
    congr 1
    omega

/-- Fate sides alone are a token where no letter or digit follows. -/
theorem lexeme_fate {chars rest : List Char} {abbreviated : Bool}
    (spelled : Sides.Spelled chars (.fate abbreviated)) (ends : Ends rest) :
    lexeme (chars ++ rest) = (.fate, chars.length) := by
  obtain ⟨count, _⟩ := sidesCount_run spelled ends
  obtain ⟨char, tail, rfl, lower⟩ : ∃ char tail, chars = char :: tail ∧ char.toLower = 'f' := by
    cases spelled with
    | letter lowered | word lowered =>
      obtain ⟨char, tail, rfl, lower, _⟩ := List.map_eq_cons_iff.mp lowered
      exact ⟨char, tail, rfl, lower⟩
  have stop : ∀ head ∈ (char :: (tail ++ rest)).head?,
      head.isDigit = false ∧ Dice.isDelimiter head = false := by
    intro head same
    cases same
    have letter := Text.isAlpha_of_toLower_eq lower (by decide)
    refine ⟨Text.isDigit_eq_false_of_isAlpha letter, ?_⟩
    by_contra divides
    rw [Bool.not_eq_false, Dice.isDelimiter_iff_toLower, lower] at divides
    exact absurd divides (by decide)
  obtain ⟨noDice, notCut⟩ := @diceCount_eq_zero [] (char :: (tail ++ rest)) nofun stop
  have noDigits := @digitCount_of_lower char (tail ++ rest) lower
  rw [List.nil_append] at noDice notCut
  rw [List.cons_append, sidesCount, noDigits, Nat.zero_max] at count
  rw [List.cons_append]
  unfold lexeme
  rw [notCut, noDice, noDigits, count]
  rfl

/-- Where neither a digit nor a delimiter nor an `f` comes first, there is a flag or a sign. -/
theorem lexeme_of_other {char : Char} {rest : List Char} (noDigit : char.isDigit = false)
    (noDelimiter : Dice.isDelimiter char = false) (noFate : char.toLower ≠ 'f') :
    lexeme (char :: rest) =
      if 0 < flagCount (char :: rest) then (.flag, flagCount (char :: rest))
      else (signKind char, 1) := by
  have stop : ∀ head ∈ (char :: rest).head?,
      head.isDigit = false ∧ Dice.isDelimiter head = false := by
    intro head same
    cases same
    exact ⟨noDigit, noDelimiter⟩
  obtain ⟨noDice, notCut⟩ := @diceCount_eq_zero [] (char :: rest) nofun stop
  have noDigits := digitCount_eq_zero fun head same => (stop head same).1
  have noSides : fateCount (char :: rest) = 0 := by
    apply fateCount_eq_zero
    intro head same
    cases same
    exact noFate
  rw [List.nil_append] at noDice notCut
  unfold lexeme
  rw [notCut, noDice, noDigits, noSides]
  rfl

/-- The word of a flag is a token where no letter or digit follows. -/
theorem lexeme_word {chars rest : List Char} {word : FlagWord}
    (spelled : FlagWord.Spelled chars word) (ends : Ends rest) :
    lexeme (chars ++ rest) = (.flag, chars.length) := by
  obtain ⟨letters, rfl, alphabetic, nonempty⟩ := spelled.letters
  have length : flagCount ('!' :: (letters ++ rest)) = letters.length + 1 := by
    have count : ((letters ++ rest).takeWhile Char.isAlpha).length = letters.length := by
      rw [takeWhile_run alphabetic ends.not_alpha]
    have some : letters.length ≠ 0 := fun none => nonempty (List.length_eq_zero_iff.mp none)
    unfold flagCount
    simp only [count]
  rw [List.cons_append, lexeme_of_other (by decide) (by decide) (by decide), length,
    if_pos (Nat.succ_pos _)]
  rfl

theorem signKind_cases {char : Char} (sign : signKind char ≠ .stray) :
    char = '(' ∨ char = ')' ∨ char = '+' ∨ char = '-' ∨ char = '*' ∨ char = '/' := by
  by_contra none
  apply sign
  unfold signKind
  split <;> simp_all

/-- A sign is a token whatever follows. -/
theorem lexeme_sign {char : Char} {rest : List Char} (sign : signKind char ≠ .stray) :
    lexeme (char :: rest) = (signKind char, 1) := by
  have signs := signKind_cases sign
  have noFlag : flagCount (char :: rest) = 0 := by
    unfold flagCount
    split
    next equal =>
      cases equal
      simp at signs
    · rfl
  rcases signs with rfl | rfl | rfl | rfl | rfl | rfl <;>
    rw [lexeme_of_other (by decide) (by decide) (by decide), noFlag] <;> rfl

/-! ## Tokens of any text -/

theorem digitCount_le (chars : List Char) : digitCount chars ≤ chars.length :=
  (List.takeWhile_prefix Char.isDigit).length_le

theorem fateCount_le (chars : List Char) : fateCount chars ≤ chars.length := by
  have bound (n : Nat) (word : List Char) (length : word.length = n)
      (same : (chars.take n).map Char.toLower = word) : n ≤ chars.length := by
    have taken := congrArg List.length same
    rw [List.length_map, List.length_take, length] at taken
    omega
  unfold fateCount
  split
  next same => exact bound 4 _ rfl same
  split
  next same => exact bound 1 _ rfl same
  · exact Nat.zero_le _

theorem sidesCount_le (chars : List Char) : sidesCount chars ≤ chars.length :=
  Nat.max_le.mpr ⟨digitCount_le chars, fateCount_le chars⟩

theorem flagCount_le (chars : List Char) : flagCount chars ≤ chars.length := by
  unfold flagCount
  split
  next rest =>
    have run := (List.takeWhile_prefix Char.isAlpha (l := rest)).length_le
    split
    · exact Nat.zero_le _
    · rw [List.length_cons]
      omega
  · exact Nat.zero_le _

/-- What is left behind the digits of a text. -/
theorem length_of_drop_digits {chars rest : List Char} {char : Char}
    (behind : chars.drop (digitCount chars) = char :: rest) :
    chars.length = digitCount chars + 1 + rest.length := by
  have length := congrArg List.length behind
  rw [List.length_drop, List.length_cons] at length
  have bound := digitCount_le chars
  omega

theorem diceCount_le (chars : List Char) : diceCount chars ≤ chars.length := by
  unfold diceCount
  split
  · exact Nat.zero_le _
  next delimiter rest behind =>
    have length := length_of_drop_digits behind
    have bound := sidesCount_le rest
    split <;> omega

theorem cutShort_le {chars : List Char} (cut : cutShort chars = true) :
    digitCount chars + 2 ≤ chars.length ∧ digitCount chars ≠ 0 := by
  unfold cutShort at cut
  split at cut
  · cases cut
  next delimiter rest behind =>
    simp only [Bool.and_eq_true, decide_eq_true_eq] at cut
    have length := length_of_drop_digits behind
    have bound := fateCount_le rest
    exact ⟨by omega, cut.1.1.1⟩

/-- A token is no longer than its text. -/
theorem lexeme_length_le {chars : List Char} (nonempty : chars ≠ []) :
    (lexeme chars).2 ≤ chars.length := by
  unfold lexeme
  split
  next cut => exact (cutShort_le cut).1
  split
  · exact diceCount_le chars
  split
  · exact digitCount_le chars
  split
  · exact fateCount_le chars
  split
  · exact flagCount_le chars
  · exact List.length_pos_of_ne_nil nonempty

theorem signKind_ne_number (char : Char) :
    signKind char ≠ .integer ∧ signKind char ≠ .dice := by
  unfold signKind
  split <;> decide

/-- A text that begins with a number does not begin with a plus sign. -/
theorem unsigned_of_lexeme {chars : List Char}
    (number : (lexeme chars).1 = .integer ∨ (lexeme chars).1 = .dice) :
    Tabletop.Unsigned chars := by
  intro plus
  obtain ⟨rest, rfl⟩ := List.head?_eq_some_iff.mp plus
  rw [lexeme_of_other (by decide) (by decide) (by decide)] at number
  have noFlag : flagCount ('+' :: rest) = 0 := rfl
  rw [noFlag, if_neg (by decide)] at number
  obtain ⟨noInteger, noDice⟩ := signKind_ne_number '+'
  exact number.elim noInteger noDice

/-- The kinds of tokens that are single signs. -/
def isSignKind : TokenKind → Bool
  | .leftParen | .rightParen | .plus | .minus | .star | .slash => true
  | _ => false

/-- A text that begins with a sign begins with its character. -/
theorem lexeme_of_isSign {chars : List Char} (sign : isSignKind (lexeme chars).1 = true) :
    ∃ char rest, chars = char :: rest ∧ signKind char = (lexeme chars).1 ∧
      (lexeme chars).2 = 1 := by
  unfold lexeme at sign ⊢
  split at sign
  · cases sign
  split at sign
  · cases sign
  split at sign
  · cases sign
  split at sign
  · cases sign
  split at sign
  · cases sign
  next noCut noDice noDigits noSides noFlag =>
    simp only [noCut, noDice, noDigits, noSides, noFlag, if_false]
    cases chars with
    | nil => cases sign
    | cons char rest => exact ⟨char, rest, rfl, rfl, rfl⟩

end Token

end Tabletop
