import Tabletop.Proofs.Division
import Tabletop.Proofs.Pool
import Tabletop.Proofs.Rolls

/-!
# Arithmetic as exact arithmetic

Where arithmetic on scores gives a result, it is that of unbounded integers, with differences raised
to one. It grows with its left operand as long as the right one is not negative, and with both
operands where it adds or multiplies what is not negative.
-/

namespace Tabletop

/-- Scores are compared by their values. -/
theorem Score.val_max (a b : Score) : (max a b).val = max a.val b.val :=
  Monotone.map_max fun _ _ le => le

namespace BinaryOp

/-- The operation on integers of any size. -/
def exact : BinaryOp → Int → Int → Int
  | .add, a, b => a + b
  | .subtract, a, b => max 1 (a - b)
  | .multiply, a, b => a * b
  | .divide, a, b => a.fdiv b

/-- Whether a larger right operand makes the result less. -/
def lowers : BinaryOp → Bool
  | .add | .multiply => false
  | .subtract | .divide => true

theorem exact_of_apply {op : BinaryOp} {a b result : Score} (done : op.apply a b = .ok result) :
    result.val = op.exact a.val b.val := by
  cases op with
  | add => exact Score.narrow_eq_ok_iff.mp done
  | subtract =>
    change (Score.narrow (a.val - b.val)).map (max Score.one) = .ok result at done
    cases difference : Score.narrow (a.val - b.val) with
    | error error =>
      rw [difference] at done
      cases done
    | ok score =>
      rw [difference] at done
      cases done
      change (max Score.one score).val = max 1 (a.val - b.val)
      rw [Score.val_max, Score.narrow_eq_ok_iff.mp difference]
      rfl
  | multiply => exact Score.narrow_eq_ok_iff.mp done
  | divide =>
    change a.divide b = .ok result at done
    by_cases zero : b.val = 0
    · have refused : a.divide b = .error .divisionByZero := if_pos zero
      rw [refused] at done
      cases done
    · rw [Score.divide_of_ne_zero zero] at done
      exact Score.narrow_eq_ok_iff.mp done

theorem exact_le_left (op : BinaryOp) {a higher b : Int} (le : a ≤ higher) (nonneg : 0 ≤ b) :
    op.exact a b ≤ op.exact higher b := by
  cases op with
  | add => exact Int.add_le_add_right le b
  | subtract => exact max_le_max_left 1 (Int.sub_le_sub_right le b)
  | multiply => exact Int.mul_le_mul_of_nonneg_right le nonneg
  | divide =>
    change a.fdiv b ≤ higher.fdiv b
    rw [Int.fdiv_eq_ediv_of_nonneg _ nonneg, Int.fdiv_eq_ediv_of_nonneg _ nonneg]
    rcases eq_or_lt_of_le nonneg with rfl | positive
    · rw [Int.ediv_zero, Int.ediv_zero]
    · exact Int.ediv_le_ediv positive le

/-- A result grows with both operands, except that the right one may not change if it lowers it. -/
theorem exact_le (op : BinaryOp) {a higher b other : Int} (left : 0 ≤ a) (leftLe : a ≤ higher)
    (right : 0 ≤ b) (rightLe : b ≤ other) (fixed : op.lowers = true → b = other) :
    op.exact a b ≤ op.exact higher other := by
  cases op with
  | add => exact Int.add_le_add leftLe rightLe
  | multiply => exact Int.mul_le_mul leftLe rightLe right (left.trans leftLe)
  | subtract | divide =>
    cases fixed rfl
    exact exact_le_left _ leftLe right

theorem exact_nonneg (op : BinaryOp) {a b : Int} (left : 0 ≤ a) (right : 0 ≤ b) :
    0 ≤ op.exact a b := by
  cases op with
  | add => exact Int.add_nonneg left right
  | subtract => exact le_trans (by decide) (le_max_left 1 (a - b))
  | multiply => exact Int.mul_nonneg left right
  | divide => exact Int.fdiv_nonneg left right

theorem nonneg_of_apply {op : BinaryOp} {a b result : Score} (left : 0 ≤ a.val) (right : 0 ≤ b.val)
    (done : op.apply a b = .ok result) : 0 ≤ result.val := by
  rw [exact_of_apply done]
  exact op.exact_nonneg left right

/-- A result grows with the left operand, if the right one is not negative. -/
theorem apply_le_left {op : BinaryOp} {a higher b low high : Score} (le : a ≤ higher)
    (nonneg : 0 ≤ b.val) (lowDone : op.apply a b = .ok low)
    (highDone : op.apply higher b = .ok high) : low ≤ high := by
  change low.val ≤ high.val
  rw [exact_of_apply lowDone, exact_of_apply highDone]
  exact op.exact_le_left le nonneg

end BinaryOp

/-- Where every result of a pool is changed, the new pool is that of a function. -/
theorem Pool.exists_map_of_mapM {change : Score → Except RollError Score} {pool changed : Pool}
    (done : pool.mapM change = .ok changed) :
    ∃ value : Score → Score, changed = pool.map value ∧
      ∀ result ∈ pool, change result = .ok (value result) := by
  refine ⟨fun result => (change result).toOption.getD .zero, ?_⟩
  induction pool generalizing changed with
  | nil =>
    simp only [List.mapM_nil, pure, Except.pure, Except.ok.injEq] at done
    subst done
    exact ⟨List.map_nil.symm, fun _ member => absurd member List.not_mem_nil⟩
  | cons result pool ih =>
    rw [List.mapM_cons, RollError.bind_eq_ok_iff] at done
    obtain ⟨first, firstDone, done⟩ := done
    obtain ⟨rest, restDone, done⟩ := RollError.bind_eq_ok_iff.mp done
    cases done
    obtain ⟨restEq, restOk⟩ := ih restDone
    refine ⟨?_, List.forall_mem_cons.mpr ⟨?_, restOk⟩⟩
    · rw [List.map_cons, ← restEq, firstDone]
      rfl
    · dsimp only
      rw [firstDone]
      rfl

end Tabletop
