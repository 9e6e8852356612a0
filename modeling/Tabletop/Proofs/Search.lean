import Tabletop.Error
import Tabletop.Proofs.Pattern

/-!
# The search for dice

The search has a pattern of its own: digits of any script or none, a delimiter, and then digits or
capital `F`s as far as they go. It finds the match that begins furthest to the left, and of the
matches that begin there the longest one.
-/

namespace Tabletop

open Pattern

namespace Text

/-- The decimal digits of every script. -/
def allDigits : List Char :=
  digitRanges.flatMap fun digits => range (.ofNat digits.1) (.ofNat digits.2)

theorem mem_allDigits {char : Char} : char ∈ allDigits ↔ isDigit char = true := by
  have ends : ∀ digits ∈ digitRanges, (Char.ofNat digits.1).toNat = digits.1 ∧
      (Char.ofNat digits.2).toNat = digits.2 ∧ (digits.2 < 55296 ∨ 57343 < digits.1) ∧
      digits.1 ≤ digits.2 := by decide +kernel
  rw [isDigit, covers_iff digitRanges_ascending fun digits member => (ends digits member).2.2.2,
    allDigits, List.mem_flatMap]
  refine exists_congr fun digits => and_congr_right fun member => ?_
  obtain ⟨first, last, clear, _⟩ := ends digits member
  rw [mem_range (by rw [first, last]; exact clear), first, last]

end Text

namespace Dice

/-- The pattern that the search looks for. -/
def pattern : RegularExpression Char :=
  (oneOf Text.allDigits).star * caseless ['d'] * someOf ('F' :: Text.allDigits)

/-- The whole text matches the pattern of the search. -/
def Matches (chars : List Char) : Prop :=
  chars ∈ pattern.matches'

/-- Between `before` and `after` stands a match. None begins further to the left, and none that
begins at the same place is longer. -/
structure Found (before found after : List Char) : Prop where
  fits : Matches found
  leftmost : ∀ back, back <:+ before → back ≠ [] →
    ∀ start, start <+: back ++ (found ++ after) → ¬ Matches start
  longest : ∀ start, start <+: found ++ after → Matches start → start.length ≤ found.length

variable {chars found rest digits : List Char}

theorem mem_sides {char : Char} : char ∈ 'F' :: Text.allDigits ↔ isSide char = true := by
  rw [List.mem_cons, Text.mem_allDigits, isSide, Bool.or_eq_true, decide_eq_true_eq, or_comm]

theorem matches_iff :
    Matches chars ↔ ∃ before delimiter sides, chars = before ++ delimiter :: sides ∧
      (∀ char ∈ before, Text.isDigit char = true) ∧ isDelimiter delimiter = true ∧
      sides ≠ [] ∧ ∀ char ∈ sides, isSide char = true := by
  unfold Matches pattern
  simp only [mem_divided, Text.mem_allDigits, mem_someOf, mem_sides]

theorem isDigit_eq_false_of_isDelimiter {char : Char} (divides : isDelimiter char = true) :
    Text.isDigit char = false := by
  rcases isDelimiter_iff.mp divides with rfl | rfl <;> decide

/-! ## Matches at the start of a text -/

/-- Digits belong to the match behind them, if there is one. -/
theorem leading?_append (number : ∀ char ∈ digits, Text.isDigit char = true) :
    leading? (digits ++ rest) = (leading? rest).map (digits ++ ·) := by
  unfold leading?
  rw [List.dropWhile_append_of_pos number, List.takeWhile_append_of_pos number]
  cases rest.dropWhile Text.isDigit with
  | nil => rfl
  | cons delimiter others =>
    dsimp only
    split
    · rw [Option.map_some, List.append_assoc]
    · rfl

/-- At a delimiter behind digits there is a match if a side follows. -/
theorem leading?_of_divided {delimiter : Char}
    (number : ∀ char ∈ digits, Text.isDigit char = true) (divides : isDelimiter delimiter = true) :
    leading? (digits ++ delimiter :: rest) =
      if rest.takeWhile isSide = [] then none
      else some (digits ++ delimiter :: rest.takeWhile isSide) := by
  have stops : ¬ Text.isDigit delimiter = true := by
    rw [isDigit_eq_false_of_isDelimiter divides]
    decide
  rw [leading?_append number]
  unfold leading?
  rw [List.dropWhile_cons_of_neg stops, List.takeWhile_cons_of_neg stops]
  dsimp only
  rw [divides, Bool.true_and]
  cases rest.takeWhile isSide <;> rfl

/-- What is neither a digit nor a delimiter with sides behind it begins no match. -/
theorem leading?_eq_none {char : Char} (noDigit : Text.isDigit char = false)
    (stop : isDelimiter char = false ∨ ∀ next ∈ rest.head?, isSide next = false) :
    leading? (char :: rest) = none := by
  unfold leading?
  rw [List.dropWhile_cons_of_neg (by rw [noDigit]; decide)]
  dsimp only
  rcases stop with noDelimiter | noSide
  · rw [noDelimiter]
    rfl
  · have noSides : rest.takeWhile isSide = [] := @Token.takeWhile_run isSide [] rest nofun noSide
    rw [noSides, List.isEmpty_nil, Bool.not_true, Bool.and_false]
    rfl

/-- A text begins with a match that goes on as long as sides follow. -/
theorem leading?_eq_some_iff :
    leading? chars = some found ↔
      Matches found ∧ ∃ rest, chars = found ++ rest ∧ ∀ char ∈ rest.head?, isSide char = false := by
  constructor
  · intro done
    have parts := List.takeWhile_append_dropWhile (p := Text.isDigit) (l := chars)
    cases tail : chars.dropWhile Text.isDigit with
    | nil => simp [leading?, tail] at done
    | cons delimiter rest =>
      have number : ∀ char ∈ chars.takeWhile Text.isDigit, Text.isDigit char = true :=
        fun _ => List.mem_takeWhile_imp
      by_cases divides : isDelimiter delimiter = true
      · rw [← parts, tail, leading?_of_divided number divides] at done
        split at done
        · cases done
        next nonempty =>
          cases done
          refine ⟨matches_iff.mpr ⟨_, delimiter, _, rfl, number, divides, nonempty,
            fun _ => List.mem_takeWhile_imp⟩, rest.dropWhile isSide, ?_, fun char first => ?_⟩
          · rw [List.append_assoc, List.cons_append, List.takeWhile_append_dropWhile, ← tail, parts]
          · have stop := List.head?_dropWhile_not isSide rest
            rw [Option.mem_def.mp first] at stop
            exact stop
      · simp [leading?, tail, divides] at done
  · rintro ⟨fits, rest, rfl, stop⟩
    obtain ⟨before, delimiter, sides, rfl, number, divides, nonempty, inside⟩ := matches_iff.mp fits
    rw [List.append_assoc, List.cons_append, leading?_of_divided number divides,
      Token.takeWhile_run inside stop, if_neg nonempty]

/-- A text that matches begins with itself as a match. -/
theorem matches_iff_leading? : Matches chars ↔ leading? chars = some chars := by
  rw [leading?_eq_some_iff]
  exact ⟨fun fits => ⟨fits, [], (List.append_nil chars).symm, nofun⟩, And.left⟩

/-- A match is divided where its spelling is. -/
theorem matches_divided_iff {delimiter : Char} {sides : List Char}
    (number : ∀ char ∈ digits, Text.isDigit char = true) (divides : isDelimiter delimiter = true) :
    Matches (digits ++ delimiter :: sides) ↔
      sides ≠ [] ∧ ∀ char ∈ sides, isSide char = true := by
  rw [matches_iff_leading?, leading?_of_divided number divides]
  constructor
  · intro whole
    split at whole
    · cases whole
    next nonempty =>
      have same : sides.takeWhile isSide = sides := by simpa using whole
      rw [same] at nonempty
      exact ⟨nonempty, List.takeWhile_eq_self_iff.mp same⟩
  · rintro ⟨nonempty, inside⟩
    rw [List.takeWhile_eq_self_iff.mpr inside, if_neg nonempty]

/-- A text begins with no match if no start of it is one. -/
theorem leading?_eq_none_iff :
    leading? chars = none ↔ ∀ start, start <+: chars → ¬ Matches start := by
  constructor
  · rintro none start ⟨rest, rfl⟩ fits
    obtain ⟨before, delimiter, sides, rfl, number, divides, nonempty, inside⟩ := matches_iff.mp fits
    rw [List.append_assoc, List.cons_append, leading?_of_divided number divides,
      List.takeWhile_append_of_pos inside, if_neg (List.append_ne_nil_of_left_ne_nil nonempty _)]
      at none
    cases none
  · intro free
    cases done : leading? chars with
    | none => rfl
    | some found =>
      obtain ⟨fits, rest, rfl, _⟩ := leading?_eq_some_iff.mp done
      exact absurd fits (free found (List.prefix_append found rest))

/-- A match is the longest at its place exactly if no side follows it. -/
theorem longest_iff (fits : Matches found) :
    (∀ start, start <+: found ++ rest → Matches start → start.length ≤ found.length) ↔
      ∀ char ∈ rest.head?, isSide char = false := by
  constructor
  · intro longest char first
    obtain ⟨after, rfl⟩ := List.head?_eq_some_iff.mp first
    by_contra side
    rw [Bool.not_eq_false] at side
    obtain ⟨before, delimiter, sides, rfl, number, divides, _, inside⟩ := matches_iff.mp fits
    have more : Matches (before ++ delimiter :: (sides ++ [char])) :=
      matches_iff.mpr ⟨before, delimiter, _, rfl, number, divides, by simp,
        List.forall_mem_append.mpr ⟨inside, List.forall_mem_singleton.mpr side⟩⟩
    have bound := longest _ ⟨after, by simp⟩ more
    simp at bound
  · rintro stop start ⟨more, whole⟩ other
    have first := leading?_eq_some_iff.mpr ⟨fits, rest, rfl, stop⟩
    obtain ⟨before, delimiter, sides, rfl, number, divides, nonempty, inside⟩ :=
      matches_iff.mp other
    rw [← whole, List.append_assoc, List.cons_append, leading?_of_divided number divides,
      List.takeWhile_append_of_pos inside, if_neg (List.append_ne_nil_of_left_ne_nil nonempty _)]
      at first
    rw [← Option.some.inj first]
    simp

/-! ## What the search passes over -/

/-- With `rest` behind these characters, no match begins at any of them. -/
inductive Passed (rest : List Char) : List Char → Prop where
  | nil : Passed rest []
  | cons {char : Char} {front : List Char} (none : leading? (char :: (front ++ rest)) = none)
      (more : Passed rest front) : Passed rest (char :: front)

namespace Passed

variable {front run : List Char}

theorem append (left : Passed (run ++ rest) front) (right : Passed rest run) :
    Passed rest (front ++ run) := by
  induction left with
  | nil => exact right
  | cons none _ ih =>
    rw [← List.append_assoc] at none
    exact .cons none ih

/-- Digits are passed over if no match begins behind them. -/
theorem of_digits (number : ∀ char ∈ digits, Text.isDigit char = true)
    (none : leading? rest = none) : Passed rest digits := by
  induction digits with
  | nil => exact .nil
  | cons digit digits ih =>
    refine .cons ?_ (ih fun char member => number char (List.mem_cons_of_mem digit member))
    rw [← List.cons_append, leading?_append number, none]
    rfl

/-- A run without sides is passed over if it has no delimiter or no side follows. -/
theorem of_not_side (outside : ∀ char ∈ run, isSide char = false)
    (stop : (∀ char ∈ run, isDelimiter char = false) ∨ ∀ char ∈ rest.head?, isSide char = false) :
    Passed rest run := by
  induction run with
  | nil => exact .nil
  | cons char run ih =>
    obtain ⟨here, others⟩ := List.forall_mem_cons.mp outside
    have noDigit : Text.isDigit char = false := (Bool.or_eq_false_iff.mp here).1
    rcases stop with noDelimiter | noSide
    · obtain ⟨first, later⟩ := List.forall_mem_cons.mp noDelimiter
      exact .cons (leading?_eq_none noDigit (.inl first)) (ih others (.inl later))
    · refine .cons (leading?_eq_none noDigit (.inr fun next first => ?_)) (ih others (.inr noSide))
      cases run with
      | nil => exact noSide next first
      | cons other run =>
        cases first
        exact others next List.mem_cons_self

theorem find?_eq (passed : Passed rest front) : find? (front ++ rest) = find? rest := by
  induction passed with
  | nil => rfl
  | cons none _ ih =>
    rw [List.cons_append, find?, none]
    exact ih

end Passed

theorem passed_iff {front : List Char} :
    Passed rest front ↔ ∀ back, back <:+ front → back ≠ [] → leading? (back ++ rest) = none := by
  constructor
  · intro passed
    induction passed with
    | nil => exact fun back none some => absurd (List.suffix_nil.mp none) some
    | cons none _ ih =>
      intro back suffix nonempty
      rcases List.suffix_cons_iff.mp suffix with rfl | inner
      · exact none
      · exact ih back inner nonempty
  · intro free
    induction front with
    | nil => exact .nil
    | cons char front ih =>
      exact .cons (free _ List.suffix_rfl (List.cons_ne_nil char front))
        (ih fun back inner => free back (inner.trans (List.suffix_cons char front)))

/-! ## The leftmost match -/

variable {before after : List Char}

/-- A match is found behind what is passed over. -/
theorem found_iff :
    Found before found after ↔
      Passed (found ++ after) before ∧ leading? (found ++ after) = some found := by
  constructor
  · intro here
    exact ⟨passed_iff.mpr fun back inner nonempty =>
        leading?_eq_none_iff.mpr (here.leftmost back inner nonempty),
      leading?_eq_some_iff.mpr ⟨here.fits, after, rfl, (longest_iff here.fits).mp here.longest⟩⟩
  · rintro ⟨passed, begins⟩
    obtain ⟨fits, rest, whole, stop⟩ := leading?_eq_some_iff.mp begins
    cases List.append_cancel_left whole
    refine ⟨fits, fun back inner nonempty => ?_, (longest_iff fits).mpr stop⟩
    exact leading?_eq_none_iff.mp (passed_iff.mp passed back inner nonempty)

/-- The search finds the leftmost match, and the longest one there. -/
theorem find?_eq_some_iff :
    find? chars = some found ↔
      ∃ before after, chars = before ++ (found ++ after) ∧ Found before found after := by
  simp only [found_iff]
  constructor
  · intro done
    induction chars with
    | nil => cases done
    | cons char chars ih =>
      unfold find? at done
      cases start : leading? (char :: chars) with
      | some first =>
        rw [start] at done
        cases done
        obtain ⟨_, after, whole, _⟩ := leading?_eq_some_iff.mp start
        exact ⟨[], after, whole, .nil, whole ▸ start⟩
      | none =>
        rw [start] at done
        obtain ⟨before, after, rfl, passed, begins⟩ := ih done
        exact ⟨char :: before, after, rfl, .cons start passed, begins⟩
  · rintro ⟨before, after, rfl, passed, begins⟩
    rw [passed.find?_eq]
    cases whole : found ++ after with
    | nil =>
      rw [whole] at begins
      cases begins
    | cons char chars =>
      rw [whole] at begins
      rw [find?, begins]

end Dice

end Tabletop
