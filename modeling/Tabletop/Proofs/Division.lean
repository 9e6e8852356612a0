import Mathlib
import Tabletop.BinaryOp

/-!
# Division rounds down

A quotient is computed by rounding towards zero, and is lowered by one where that is up. Only the
first step is checked. It overflows in a single case, and where it does not, neither what is left
nor the lowered quotient is out of range. So the result is the exact quotient rounded down.
-/

namespace Tabletop.Score

variable {a b : Score}

/-! ## Rounding towards zero -/

theorem tmod_nonpos {n : Int} (d : Int) (nonpos : n ≤ 0) : n.tmod d ≤ 0 := by
  have mirrored := Int.tmod_nonneg d (Int.neg_nonneg_of_nonpos nonpos)
  rwa [Int.neg_tmod, Int.neg_nonneg] at mirrored

/-- Less than the divisor is left; a division by zero gives zero. -/
theorem natAbs_tmod_lt {n d : Int} (nonzero : n.tdiv d ≠ 0) : (n.tmod d).natAbs < d.natAbs := by
  have divisor : d ≠ 0 := by
    rintro rfl
    exact nonzero n.tdiv_zero
  rw [Int.natAbs_tmod]
  exact Nat.mod_lt _ (Int.natAbs_pos.mpr divisor)

/-- What is left has the sign of the dividend and is not greater in size. -/
theorem fits_tmod (a b : Score) : Fits (a.val.tmod b.val) := by
  have smaller : (a.val.tmod b.val).natAbs ≤ a.val.natAbs := by
    rw [Int.natAbs_tmod]
    exact Nat.mod_le _ _
  have own := a.fits
  rcases Int.le_total 0 a.val with nonneg | nonpos
  · have := Int.tmod_nonneg b.val nonneg
    omega
  · have := tmod_nonpos b.val nonpos
    omega

theorem roundsUp_iff :
    a.roundsUp b = true ↔ a.val.tmod b.val ≠ 0 ∧ ¬ (a.val < 0 ↔ b.val < 0) := by
  unfold roundsUp remainder
  rw [val_wrap_eq_iff.mpr (fits_tmod a b)]
  simp

/-- Only the lowest score has so large a quotient, by one or minus one, and then nothing is left. -/
theorem eq_lowest_of_le_natAbs_tdiv
    (large : 9223372036854775808 ≤ (a.val.tdiv b.val).natAbs) :
    a.val = -9223372036854775808 ∧ (b.val = 1 ∨ b.val = -1) ∧ a.val.tmod b.val = 0 := by
  have own := a.fits
  have smaller := Int.natAbs_tdiv_le_natAbs a.val b.val
  have left : (a.val.tmod b.val).natAbs < b.val.natAbs := natAbs_tmod_lt (by omega)
  -- with the quotient known, the dividend is linear in the divisor and in what is left
  have parts := Int.mul_tdiv_add_tmod a.val b.val
  obtain beyond | lowest : a.val.tdiv b.val = 9223372036854775808 ∨
      a.val.tdiv b.val = -9223372036854775808 := by omega
  · rw [beyond] at parts
    omega
  · rw [lowest] at parts
    omega

/-- The quotient is rounded towards zero within the range, unless the lowest score changes its
sign. -/
theorem fits_tdiv_iff (a b : Score) :
    Fits (a.val.tdiv b.val) ↔ ¬ (a.val = -9223372036854775808 ∧ b.val = -1) := by
  constructor
  · rintro fits ⟨lowest, minus⟩
    rw [lowest, minus] at fits
    exact absurd fits (by decide)
  · intro other
    by_contra outside
    obtain ⟨lowest, one | minus, _⟩ := @eq_lowest_of_le_natAbs_tdiv a b (by omega)
    · rw [one, Int.tdiv_one] at outside
      exact outside a.fits
    · exact other ⟨lowest, minus⟩

/-- A quotient that is rounded up is a score and not the lowest one. -/
theorem fits_of_roundsUp (up : a.roundsUp b = true) :
    Fits (a.val.tdiv b.val) ∧ Fits (a.val.tdiv b.val - 1) := by
  obtain ⟨inexact, signs⟩ := roundsUp_iff.mp up
  have fits : Fits (a.val.tdiv b.val) := (fits_tdiv_iff a b).mpr (by omega)
  refine ⟨fits, ?_⟩
  by_contra outside
  exact inexact (@eq_lowest_of_le_natAbs_tdiv a b (by omega)).2.2

/-! ## Rounding down -/

/-- To round down is to round towards zero and to lower what was rounded up. -/
theorem fdiv_eq_of_ne_zero (nonzero : b.val ≠ 0) :
    a.val.fdiv b.val =
      if a.roundsUp b = true then a.val.tdiv b.val - 1 else a.val.tdiv b.val := by
  rw [Int.fdiv_eq_tdiv]
  simp only [roundsUp_iff, Int.dvd_iff_tmod_eq_zero]
  rcases Int.lt_or_gt_of_ne nonzero with negative | positive
  · rw [Int.sign_eq_neg_one_of_neg negative]
    split_ifs <;> omega
  · rw [Int.sign_eq_one_of_pos positive]
    split_ifs <;> omega

/-- Division gives the quotient rounded down, and overflows where that is no score. -/
theorem divide_of_ne_zero (nonzero : b.val ≠ 0) : a.divide b = narrow (a.val.fdiv b.val) := by
  rw [divide, if_neg nonzero, fdiv_eq_of_ne_zero nonzero]
  by_cases up : a.roundsUp b = true
  · obtain ⟨fits, lowered⟩ := fits_of_roundsUp up
    simp only [up, if_true]
    rw [narrow_of_fits fits, narrow_of_fits lowered, Except.map, Except.ok.injEq, Score.ext_iff]
    exact val_wrap_eq_iff.mpr lowered
  · simp only [up, Bool.false_eq_true, if_false]
    cases narrow (a.val.tdiv b.val) <;> rfl

theorem fits_fdiv_iff (nonzero : b.val ≠ 0) :
    Fits (a.val.fdiv b.val) ↔ ¬ (a.val = -9223372036854775808 ∧ b.val = -1) := by
  rw [fdiv_eq_of_ne_zero nonzero, ← fits_tdiv_iff]
  split
  next up => exact iff_of_true (fits_of_roundsUp up).2 (fits_of_roundsUp up).1
  next => rfl

theorem fdiv_bounds_of_pos (n : Int) {d : Int} (positive : 0 < d) :
    n.fdiv d * d ≤ n ∧ n < n.fdiv d * d + d := by
  have parts := Int.fmod_add_fdiv_mul n d
  have left := Int.fmod_nonneg_of_pos n positive
  have small := Int.fmod_lt_of_pos n positive
  omega

theorem fdiv_bounds_of_neg (n : Int) {d : Int} (negative : d < 0) :
    n ≤ n.fdiv d * d ∧ n.fdiv d * d + d < n := by
  have mirrored := fdiv_bounds_of_pos (-n) (Int.neg_pos_of_neg negative)
  rw [Int.neg_fdiv_neg, Int.mul_neg] at mirrored
  omega

theorem isGreatest_fdiv_of_pos (n : Int) {d : Int} (positive : 0 < d) :
    IsGreatest {m : ℤ | (m : ℚ) ≤ n / d} (n.fdiv d) := by
  obtain ⟨here, next⟩ := fdiv_bounds_of_pos n positive
  have le_iff (m : ℤ) : (m : ℚ) ≤ n / d ↔ m * d ≤ n := by
    rw [le_div_iff₀ (Int.cast_pos.mpr positive)]
    norm_cast
  refine ⟨(le_iff _).mpr here, fun m below => ?_⟩
  by_contra above
  have beyond : (n.fdiv d + 1) * d ≤ m * d :=
    Int.mul_le_mul_of_nonneg_right (by omega) positive.le
  have := (le_iff m).mp below
  linarith

/-- A quotient that is rounded down is the greatest integer that is not above the exact one. -/
theorem isGreatest_fdiv (n : Int) {d : Int} (nonzero : d ≠ 0) :
    IsGreatest {m : ℤ | (m : ℚ) ≤ n / d} (n.fdiv d) := by
  rcases Int.lt_or_gt_of_ne nonzero with negative | positive
  · have mirrored := isGreatest_fdiv_of_pos (-n) (Int.neg_pos_of_neg negative)
    rwa [Int.neg_fdiv_neg, Int.cast_neg, Int.cast_neg, neg_div_neg_eq] at mirrored
  · exact isGreatest_fdiv_of_pos n positive

/-- A zero is not divided by, and the lowest score divided by minus one overflows. In all other
cases division gives the greatest integer that is not above the exact quotient. Neither what is left
by rounding towards zero nor a quotient that is lowered after it is ever out of range. -/
theorem divide_rounds_down (a b : Score) :
    (a.divide b = .error .divisionByZero ↔ b.val = 0) ∧
    (a.divide b = .error .overflow ↔ a.val = -9223372036854775808 ∧ b.val = -1) ∧
    (b.val ≠ 0 → ¬ (a.val = -9223372036854775808 ∧ b.val = -1) →
      ∃ quotient, a.divide b = .ok quotient ∧
        IsGreatest {n : ℤ | (n : ℚ) ≤ a.val / b.val} quotient.val ∧
        (0 < b.val → quotient.val * b.val ≤ a.val ∧ a.val < quotient.val * b.val + b.val) ∧
        (b.val < 0 → a.val ≤ quotient.val * b.val ∧ quotient.val * b.val + b.val < a.val)) ∧
    Fits (a.val.tmod b.val) ∧ (a.roundsUp b = true → Fits (a.val.tdiv b.val - 1)) := by
  refine ⟨?_, ?_, fun nonzero other => ?_, fits_tmod a b, fun up => (fits_of_roundsUp up).2⟩
  · refine ⟨fun refused => ?_, fun zero => if_pos zero⟩
    by_contra nonzero
    rw [divide_of_ne_zero nonzero, narrow_eq_error_iff] at refused
    cases refused.2
  · by_cases zero : b.val = 0
    · have refused : a.divide b = .error .divisionByZero := if_pos zero
      rw [refused]
      exact iff_of_false nofun fun lowest => by omega
    · rw [divide_of_ne_zero zero, narrow_eq_error_iff, fits_fdiv_iff zero, not_not]
      exact and_iff_left rfl
  · have fits := (fits_fdiv_iff nonzero).mpr other
    refine ⟨⟨_, fits⟩, ?_, isGreatest_fdiv a.val nonzero, fdiv_bounds_of_pos a.val,
      fdiv_bounds_of_neg a.val⟩
    rw [divide_of_ne_zero nonzero, narrow_of_fits fits]

example : divide ⟨-7, by decide⟩ ⟨2, by decide⟩ = .ok ⟨-4, by decide⟩ := by decide

end Tabletop.Score
