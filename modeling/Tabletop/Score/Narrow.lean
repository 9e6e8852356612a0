import Tabletop.RollError

/-!
# Narrowing

The result of arithmetic on scores is an integer of any size. It is brought back into the range of
scores or it overflows. Where nothing checks it, it wraps around at the ends of the range.
-/

namespace Tabletop.Score

/-- The score of this value; beyond the range it overflows. -/
def narrow (n : Int) : Except RollError Score :=
  match ofInt? n with
  | some score => .ok score
  | none => .error .overflow

theorem narrow_eq_ok_iff {n : Int} {score : Score} :
    narrow n = .ok score ↔ score.val = n := by
  rw [← ofInt?_eq_some_iff]
  unfold narrow
  cases ofInt? n <;> simp

theorem narrow_eq_error_iff {n : Int} {error : RollError} :
    narrow n = .error error ↔ ¬ Fits n ∧ error = .overflow := by
  rw [← ofInt?_eq_none_iff]
  unfold narrow
  cases ofInt? n <;> simp [eq_comm]

theorem narrow_of_fits {n : Int} (fits : Fits n) : narrow n = .ok ⟨n, fits⟩ :=
  narrow_eq_ok_iff.mpr rfl

/-- The score that an unchecked result comes to. -/
def wrap (n : Int) : Score :=
  ⟨n.bmod 18446744073709551616, by
    have low := Int.le_bmod (x := n) (m := 18446744073709551616) (by decide)
    have high := Int.bmod_lt (x := n) (m := 18446744073709551616) (by decide)
    omega⟩

/-- An unchecked result is exact as long as it is in the range. -/
theorem val_wrap_eq_iff {n : Int} : (wrap n).val = n ↔ Fits n := by
  constructor
  · intro exact
    exact exact ▸ (wrap n).fits
  · rintro ⟨low, high⟩
    exact Int.bmod_eq_of_le (by omega) (by omega)

end Tabletop.Score
