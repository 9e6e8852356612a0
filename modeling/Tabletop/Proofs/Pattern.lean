import Mathlib.Computability.RegularExpressions
import Tabletop.Proofs.Lexeme

/-!
# The patterns of tokens

Each kind of token is declared by a regular expression. A text that matches it is described in plain
words first. Then the counts of the scan are compared with the patterns: the count of a kind is the
length of the longest start of a text that matches the pattern of the kind.
-/

namespace Tabletop

/-! ## Regular expressions over characters -/

namespace Pattern

/-- One of these characters. -/
def oneOf (chars : List Char) : RegularExpression Char :=
  (chars.map .char).sum

/-- One or more of these characters. -/
def someOf (chars : List Char) : RegularExpression Char :=
  oneOf chars * (oneOf chars).star

/-- The word, each of its letters in either case. -/
def caseless (word : List Char) : RegularExpression Char :=
  (word.map fun letter => oneOf [letter, letter.toUpper]).prod

/-- The characters from the first to the last. -/
def range (first last : Char) : List Char :=
  (List.range' first.toNat (last.toNat + 1 - first.toNat)).map Char.ofNat

def digits : List Char := range '0' '9'

def letters : List Char := range 'a' 'z' ++ range 'A' 'Z'

def blanks : List Char := [' ', '\t', '\r', '\n']

/-- Fate sides, abbreviated or not. -/
def fateSides : RegularExpression Char :=
  caseless ['f'] + caseless ['f', 'a', 't', 'e']

variable {chars text word : List Char}

theorem mem_oneOf : text ∈ (oneOf chars).matches' ↔ ∃ char ∈ chars, text = [char] := by
  induction chars with
  | nil => exact iff_of_false (Language.notMem_zero text) (by simp)
  | cons char chars ih =>
    change text ∈ (RegularExpression.char char + oneOf chars).matches' ↔ _
    rw [RegularExpression.matches'_add, Language.mem_add, ih, List.exists_mem_cons_iff]
    rfl

theorem mem_star_oneOf : text ∈ (oneOf chars).star.matches' ↔ ∀ char ∈ text, char ∈ chars := by
  rw [RegularExpression.matches'_star, Language.mem_kstar]
  constructor
  · rintro ⟨parts, rfl, fits⟩ char member
    obtain ⟨part, among, inside⟩ := List.mem_flatten.mp member
    obtain ⟨only, listed, rfl⟩ := mem_oneOf.mp (fits part among)
    rw [List.mem_singleton.mp inside]
    exact listed
  · intro listed
    have whole : text = (text.map fun char => [char]).flatten := by
      rw [← List.flatMap_def, List.flatMap_singleton']
    refine ⟨_, whole, fun part among => ?_⟩
    obtain ⟨char, member, rfl⟩ := List.mem_map.mp among
    exact mem_oneOf.mpr ⟨char, listed char member, rfl⟩

theorem mem_someOf :
    text ∈ (someOf chars).matches' ↔ text ≠ [] ∧ ∀ char ∈ text, char ∈ chars := by
  unfold someOf
  rw [RegularExpression.matches'_mul, Language.mem_mul]
  constructor
  · rintro ⟨first, one, rest, more, rfl⟩
    obtain ⟨char, listed, rfl⟩ := mem_oneOf.mp one
    exact ⟨List.cons_ne_nil char rest, List.forall_mem_cons.mpr ⟨listed, mem_star_oneOf.mp more⟩⟩
  · rintro ⟨nonempty, listed⟩
    obtain ⟨char, rest, rfl⟩ := List.exists_cons_of_ne_nil nonempty
    obtain ⟨one, more⟩ := List.forall_mem_cons.mp listed
    exact ⟨[char], mem_oneOf.mpr ⟨char, one, rfl⟩, rest, mem_star_oneOf.mpr more, rfl⟩

theorem mem_caseless (lower : word.all Char.isLower = true) :
    text ∈ (caseless word).matches' ↔ text.map Char.toLower = word := by
  induction word generalizing text with
  | nil => exact List.map_eq_nil_iff.symm
  | cons letter word ih =>
    rw [List.all_cons, Bool.and_eq_true] at lower
    obtain ⟨isLower, others⟩ := lower
    change text ∈ (oneOf [letter, letter.toUpper] * caseless word).matches' ↔ _
    rw [RegularExpression.matches'_mul, Language.mem_mul, List.map_eq_cons_iff]
    constructor
    · rintro ⟨first, one, rest, more, rfl⟩
      obtain ⟨char, listed, rfl⟩ := mem_oneOf.mp one
      exact ⟨char, rest, rfl, (Text.toLower_eq_iff isLower).mpr (by simpa using listed),
        (ih others).mp more⟩
    · rintro ⟨char, rest, rfl, same, more⟩
      have listed := (Text.toLower_eq_iff isLower).mp same
      exact ⟨[char], mem_oneOf.mpr ⟨char, by simpa using listed, rfl⟩, rest, (ih others).mpr more,
        rfl⟩

/-- A range holds every character between its ends, if no surrogate lies between them. -/
theorem mem_range {first last char : Char} (clear : last.toNat < 55296 ∨ 57343 < first.toNat) :
    char ∈ range first last ↔ first.toNat ≤ char.toNat ∧ char.toNat ≤ last.toNat := by
  unfold range
  rw [List.mem_map]
  constructor
  · rintro ⟨point, inside, rfl⟩
    obtain ⟨lower, upper⟩ := List.mem_range'_1.mp inside
    have valid : point.isValidChar := by
      have lastValid : last.toNat.isValidChar := last.valid
      unfold Nat.isValidChar at lastValid ⊢
      omega
    rw [Char.toNat_ofNat, if_pos valid]
    omega
  · rintro ⟨lower, upper⟩
    exact ⟨char.toNat, List.mem_range'_1.mpr (by omega), Char.ofNat_toNat char⟩

theorem mem_digits {char : Char} : char ∈ digits ↔ char.isDigit = true := by
  unfold digits
  rw [mem_range (.inl (by decide))]
  simp [Char.isDigit, UInt32.le_iff_toNat_le]

theorem mem_letters {char : Char} : char ∈ letters ↔ char.isAlpha = true := by
  unfold letters
  rw [List.mem_append, mem_range (.inl (by decide)), mem_range (.inl (by decide)), or_comm]
  simp [Char.isAlpha, Char.isLower, Char.isUpper, UInt32.le_iff_toNat_le]

theorem mem_blanks {char : Char} : char ∈ blanks ↔ char.isWhitespace = true := by
  simp [blanks, Char.isWhitespace, or_assoc]

/-- Of some characters or none, a delimiter, and sides. -/
theorem mem_divided {sides : RegularExpression Char} :
    text ∈ ((oneOf chars).star * caseless ['d'] * sides).matches' ↔
      ∃ before delimiter after, text = before ++ delimiter :: after ∧
        (∀ char ∈ before, char ∈ chars) ∧ Dice.isDelimiter delimiter = true ∧
        after ∈ sides.matches' := by
  rw [RegularExpression.matches'_mul, RegularExpression.matches'_mul, Language.mem_mul]
  constructor
  · rintro ⟨first, ⟨before, number, letter, divides, rfl⟩, after, isSides, rfl⟩
    have lowered := (mem_caseless rfl).mp divides
    obtain ⟨delimiter, rfl, lower⟩ := List.map_eq_singleton_iff.mp lowered
    exact ⟨before, delimiter, after, List.append_assoc before [delimiter] after,
      mem_star_oneOf.mp number, Dice.isDelimiter_iff_toLower.mpr lower, isSides⟩
  · rintro ⟨before, delimiter, after, rfl, number, divides, isSides⟩
    have lowered : [delimiter].map Char.toLower = ['d'] := by
      rw [List.map_singleton, Dice.isDelimiter_iff_toLower.mp divides]
    exact ⟨before ++ [delimiter],
      ⟨before, mem_star_oneOf.mpr number, [delimiter], (mem_caseless rfl).mpr lowered, rfl⟩,
      after, isSides, List.append_assoc before [delimiter] after⟩

end Pattern

/-! ## The patterns -/

open Pattern

namespace TokenKind

/-- The pattern that a kind of token is declared by. A stray character is what no pattern begins
with; the pattern in its place is that of the blanks, which are skipped. -/
def pattern : TokenKind → RegularExpression Char
  | .integer => someOf digits
  | .dice => (oneOf digits).star * caseless ['d'] * (someOf digits + fateSides)
  | .fate => fateSides
  | .flag => .char '!' * someOf letters
  | .leftParen => .char '('
  | .rightParen => .char ')'
  | .plus => .char '+'
  | .minus => .char '-'
  | .star => .char '*'
  | .slash => .char '/'
  | .stray => someOf blanks

/-- The whole text matches the pattern of the kind. -/
def Matches (kind : TokenKind) (text : List Char) : Prop :=
  text ∈ kind.pattern.matches'

instance (kind : TokenKind) : DecidablePred kind.Matches := fun text =>
  inferInstanceAs (Decidable (text ∈ kind.pattern.matches'))

example : dice.Matches ['2', 'd', 'F', 'a', 't', 'E'] ∧ ¬ dice.Matches ['2', 'd', 'f', 'a'] := by
  decide

variable {text : List Char}

theorem matches_integer :
    integer.Matches text ↔ text ≠ [] ∧ ∀ char ∈ text, char.isDigit = true := by
  simp only [Matches, pattern, mem_someOf, mem_digits]

theorem matches_fate :
    fate.Matches text ↔ text.map Char.toLower = ['f'] ∨
      text.map Char.toLower = ['f', 'a', 't', 'e'] :=
  or_congr (mem_caseless rfl) (mem_caseless rfl)

theorem matches_dice :
    dice.Matches text ↔ ∃ before delimiter after, text = before ++ delimiter :: after ∧
      (∀ char ∈ before, char.isDigit = true) ∧ Dice.isDelimiter delimiter = true ∧
      (integer.Matches after ∨ fate.Matches after) := by
  change text ∈ ((oneOf digits).star * caseless ['d'] * (someOf digits + fateSides)).matches' ↔ _
  simp only [mem_divided, mem_digits]
  rfl

theorem matches_flag :
    flag.Matches text ↔ ∃ letters, text = '!' :: letters ∧ letters ≠ [] ∧
      ∀ char ∈ letters, char.isAlpha = true := by
  change text ∈ (RegularExpression.char '!' * someOf letters).matches' ↔ _
  rw [RegularExpression.matches'_mul, Language.mem_mul]
  constructor
  · rintro ⟨mark, rfl, letters, word, rfl⟩
    obtain ⟨nonempty, inside⟩ := mem_someOf.mp word
    exact ⟨letters, rfl, nonempty, fun char member => mem_letters.mp (inside char member)⟩
  · rintro ⟨letters, rfl, nonempty, inside⟩
    exact ⟨['!'], rfl, letters,
      mem_someOf.mpr ⟨nonempty, fun char member => mem_letters.mpr (inside char member)⟩, rfl⟩

theorem matches_sign {kind : TokenKind} (isSign : Token.isSignKind kind = true) :
    kind.Matches text ↔ ∃ char, text = [char] ∧ Token.signKind char = kind := by
  constructor
  · intro fits
    cases kind <;> first | exact absurd isSign (by decide) | exact ⟨_, fits, rfl⟩
  · rintro ⟨char, rfl, rfl⟩
    have sign : Token.signKind char ≠ .stray := fun stray => by rw [stray] at isSign; cases isSign
    rcases Token.signKind_cases sign with rfl | rfl | rfl | rfl | rfl | rfl <;> rfl

theorem matches_stray :
    stray.Matches text ↔ text ≠ [] ∧ ∀ char ∈ text, char.isWhitespace = true := by
  simp only [Matches, pattern, mem_someOf, mem_blanks]

/-! ## The longest match -/

/-- The number of characters that a kind takes at the start of a text, or zero. -/
def count (kind : TokenKind) (chars : List Char) : Nat :=
  match kind with
  | .integer => Token.digitCount chars
  | .dice => Token.diceCount chars
  | .fate => Token.fateCount chars
  | .flag => Token.flagCount chars
  | .stray => (chars.takeWhile Char.isWhitespace).length
  | sign => if chars.head?.map Token.signKind = some sign then 1 else 0

/-- No start of the text that matches is longer than `size`, and one has this length unless it is
zero. -/
structure Longest (kind : TokenKind) (chars : List Char) (size : Nat) : Prop where
  length_le : ∀ start, start <+: chars → kind.Matches start → start.length ≤ size
  matches_take : 0 < size → kind.Matches (chars.take size)

variable {chars : List Char}

/-- A run of characters of a class is the longest start that consists of them. -/
theorem longest_run {kind : TokenKind} {p : Char → Bool}
    (run : ∀ text, kind.Matches text ↔ text ≠ [] ∧ ∀ char ∈ text, p char = true) :
    kind.Longest chars (chars.takeWhile p).length where
  length_le := by
    rintro start ⟨rest, rfl⟩ fits
    rw [List.takeWhile_append_of_pos ((run start).mp fits).2, List.length_append]
    exact Nat.le_add_right _ _
  matches_take positive := by
    rw [← List.prefix_iff_eq_take.mp (List.takeWhile_prefix p)]
    exact (run _).mpr ⟨List.ne_nil_of_length_pos positive, fun _ => List.mem_takeWhile_imp⟩

theorem longest_integer : integer.Longest chars (Token.digitCount chars) :=
  longest_run fun _ => matches_integer

/-- A word at the start of a text is seen there. -/
theorem lowered_take {start rest word : List Char} (lowered : start.map Char.toLower = word) :
    ((start ++ rest).take word.length).map Char.toLower = word := by
  rw [← lowered, List.length_map, List.take_left]

theorem longest_fate : fate.Longest chars (Token.fateCount chars) where
  length_le := by
    rintro start ⟨rest, rfl⟩ fits
    unfold Token.fateCount
    rcases matches_fate.mp fits with lowered | lowered
    · have size : start.length = 1 := by rw [← List.length_map Char.toLower, lowered]; rfl
      have letter : ((start ++ rest).take 1).map Char.toLower = ['f'] := lowered_take lowered
      rw [size, if_pos letter]
      split <;> decide
    · have size : start.length = 4 := by rw [← List.length_map Char.toLower, lowered]; rfl
      have word : ((start ++ rest).take 4).map Char.toLower = ['f', 'a', 't', 'e'] :=
        lowered_take lowered
      rw [size, if_pos word]
  matches_take positive := by
    unfold Token.fateCount at positive ⊢
    split
    next word => exact matches_fate.mpr (.inr word)
    next noWord =>
      split
      next letter => exact matches_fate.mpr (.inl letter)
      next noLetter =>
        rw [if_neg noWord, if_neg noLetter] at positive
        cases positive

/-- Sides are no longer than the scan counts them, and not empty. -/
theorem length_le_sidesCount {sides : List Char} (rest : List Char)
    (fits : integer.Matches sides ∨ fate.Matches sides) :
    0 < sides.length ∧ sides.length ≤ Token.sidesCount (sides ++ rest) := by
  have within : sides <+: sides ++ rest := List.prefix_append sides rest
  rcases fits with digits | faces
  · exact ⟨List.length_pos_of_ne_nil (matches_integer.mp digits).1,
      (longest_integer.length_le sides within digits).trans (Nat.le_max_left _ _)⟩
  · refine ⟨List.length_pos_of_ne_nil ?_,
      (longest_fate.length_le sides within faces).trans (Nat.le_max_right _ _)⟩
    rintro rfl
    exact absurd faces (by decide)

theorem matches_take_sidesCount (positive : 0 < Token.sidesCount chars) :
    integer.Matches (chars.take (Token.sidesCount chars)) ∨
      fate.Matches (chars.take (Token.sidesCount chars)) := by
  unfold Token.sidesCount at positive ⊢
  rcases Nat.le_total (Token.digitCount chars) (Token.fateCount chars) with less | less
  · rw [Nat.max_eq_right less] at positive ⊢
    exact .inr (longest_fate.matches_take positive)
  · rw [Nat.max_eq_left less] at positive ⊢
    exact .inl (longest_integer.matches_take positive)

theorem isDigit_of_mem_take :
    ∀ char ∈ chars.take (Token.digitCount chars), char.isDigit = true := by
  unfold Token.digitCount
  rw [← List.prefix_iff_eq_take.mp (List.takeWhile_prefix Char.isDigit)]
  exact fun _ => List.mem_takeWhile_imp

theorem longest_dice : dice.Longest chars (Token.diceCount chars) where
  length_le := by
    rintro start ⟨rest, rfl⟩ fits
    obtain ⟨before, delimiter, after, rfl, number, divides, sides⟩ := matches_dice.mp fits
    obtain ⟨some, bound⟩ := length_le_sidesCount rest sides
    have noDigit : ∀ char ∈ (delimiter :: (after ++ rest)).head?, char.isDigit = false := by
      intro char same
      cases same
      exact Text.isDigit_eq_false_of_isAlpha (Dice.isAlpha_of_isDelimiter divides)
    unfold Token.diceCount
    rw [List.append_assoc, List.cons_append, Token.digitCount_run number noDigit, List.drop_left]
    simp only [divides, some.trans_le bound, and_self, if_true, List.length_append,
      List.length_cons]
    omega
  matches_take positive := by
    unfold Token.diceCount at positive ⊢
    split at positive
    · cases positive
    next delimiter rest behind =>
      split at positive
      next present =>
        have sides := matches_take_sidesCount present.2
        rw [if_pos present, Nat.add_assoc, List.take_add, behind, Nat.add_comm 1,
          List.take_succ_cons]
        exact matches_dice.mpr ⟨_, delimiter, _, rfl, isDigit_of_mem_take, present.1, sides⟩
      · cases positive

/-- A flag is counted with its mark where letters follow. -/
theorem flagCount_mark (rest : List Char) :
    Token.flagCount ('!' :: rest) =
      if rest.takeWhile Char.isAlpha = [] then 0
      else (rest.takeWhile Char.isAlpha).length + 1 := by
  unfold Token.flagCount
  cases letters : rest.takeWhile Char.isAlpha <;> simp [letters]

theorem longest_flag : flag.Longest chars (Token.flagCount chars) where
  length_le := by
    rintro start ⟨rest, rfl⟩ fits
    obtain ⟨letters, rfl, nonempty, inside⟩ := matches_flag.mp fits
    rw [List.cons_append, flagCount_mark, List.takeWhile_append_of_pos inside, if_neg,
      List.length_cons, List.length_append]
    · omega
    · exact List.append_ne_nil_of_left_ne_nil nonempty _
  matches_take positive := by
    by_cases mark : ∃ rest, chars = '!' :: rest
    · obtain ⟨rest, rfl⟩ := mark
      rw [flagCount_mark] at positive ⊢
      split at positive
      · cases positive
      next some =>
        rw [if_neg some, List.take_succ_cons,
          ← List.prefix_iff_eq_take.mp (List.takeWhile_prefix Char.isAlpha)]
        exact matches_flag.mpr ⟨_, rfl, some, fun _ => List.mem_takeWhile_imp⟩
    · unfold Token.flagCount at positive
      split at positive
      next rest => exact absurd ⟨rest, rfl⟩ mark
      · cases positive

theorem longest_sign {kind : TokenKind} (isSign : Token.isSignKind kind = true) :
    kind.Longest chars (if chars.head?.map Token.signKind = some kind then 1 else 0) where
  length_le := by
    rintro start ⟨rest, rfl⟩ fits
    obtain ⟨char, rfl, sign⟩ := (matches_sign isSign).mp fits
    rw [List.singleton_append, List.head?_cons, Option.map_some, sign, if_pos rfl]
    rfl
  matches_take positive := by
    split at positive
    next same =>
      obtain ⟨char, first, sign⟩ := Option.map_eq_some_iff.mp same
      obtain ⟨rest, rfl⟩ := List.head?_eq_some_iff.mp first
      rw [if_pos same]
      exact (matches_sign isSign).mpr ⟨char, rfl, sign⟩
    · cases positive

theorem longest_count (kind : TokenKind) (chars : List Char) :
    kind.Longest chars (kind.count chars) := by
  cases kind with
  | integer => exact longest_integer
  | dice => exact longest_dice
  | fate => exact longest_fate
  | flag => exact longest_flag
  | stray => exact longest_run fun _ => matches_stray
  | leftParen | rightParen | plus | minus | star | slash => exact longest_sign rfl

end TokenKind

end Tabletop
