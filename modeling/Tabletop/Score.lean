/-!
# Scores

Results and totals are integers of a fixed range, the one that 64 bits with a sign can hold.
Arithmetic on them is done without bounds and its result is then brought back into the range, or
refused.
-/

namespace Tabletop

/-- The integers a score can be. -/
abbrev Score.Fits (n : Int) : Prop :=
  -9223372036854775808 ≤ n ∧ n ≤ 9223372036854775807

/-- A result or a total. -/
@[ext] structure Score where
  val : Int
  fits : Score.Fits val
  deriving DecidableEq

namespace Score

instance : LE Score := ⟨fun a b => a.val ≤ b.val⟩
instance : LT Score := ⟨fun a b => a.val < b.val⟩

instance (a b : Score) : Decidable (a ≤ b) := inferInstanceAs (Decidable (a.val ≤ b.val))
instance (a b : Score) : Decidable (a < b) := inferInstanceAs (Decidable (a.val < b.val))

instance : Min Score := minOfLe
instance : Max Score := maxOfLe

instance : ToString Score := ⟨fun score => toString score.val⟩

def zero : Score := ⟨0, by decide⟩
def one : Score := ⟨1, by decide⟩
def minusOne : Score := ⟨-1, by decide⟩

instance : Inhabited Score := ⟨zero⟩

/-- The score of this value, if the range holds it. -/
def ofInt? (n : Int) : Option Score :=
  if fits : Fits n then some ⟨n, fits⟩ else none

theorem ofInt?_eq_some_iff {n : Int} {score : Score} : ofInt? n = some score ↔ score.val = n := by
  unfold ofInt?
  split
  · simp only [Option.some.injEq, Score.ext_iff]
    exact eq_comm
  next outside =>
    simp only [reduceCtorEq, false_iff]
    rintro rfl
    exact outside score.fits

theorem ofInt?_eq_none_iff {n : Int} : ofInt? n = none ↔ ¬ Fits n := by
  unfold ofInt?
  split <;> simp_all

/-- The largest value of a score, as a bound for numerals. -/
def highest : Nat := 9223372036854775807

end Score

end Tabletop
