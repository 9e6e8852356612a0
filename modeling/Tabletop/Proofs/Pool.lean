import Mathlib
import Tabletop.Session

/-!
# Pools and their sums

Scores are ordered by their values. A sum that a pool gives is exact, its best and its worst result
are bounds of it that belong to it, and as many faces are drawn as are asked for.
-/

namespace Tabletop

instance : LinearOrder Score where
  le_refl score := Int.le_refl score.val
  le_trans _ _ _ first second := Int.le_trans first second
  le_antisymm _ _ first second := Score.ext (Int.le_antisymm first second)
  le_total left right := Int.le_total left.val right.val
  lt_iff_le_not_ge _ _ := Int.lt_iff_le_and_not_ge
  toDecidableLE := inferInstance
  min_def _ _ := rfl
  max_def _ _ := rfl

namespace Pool

/-- The sum of the results, of any size. -/
def sum (pool : Pool) : Int :=
  (pool.map Score.val).sum

theorem sum_cons (result : Score) (pool : Pool) : sum (result :: pool) = result.val + pool.sum :=
  List.sum_cons

theorem sum_append (first rest : Pool) : sum (first ++ rest) = first.sum + rest.sum := by
  unfold sum
  rw [List.map_append, List.sum_append]

theorem sum_nonneg {pool : Pool} (nonneg : ∀ result ∈ pool, 0 ≤ result.val) : 0 ≤ pool.sum :=
  List.sum_nonneg (List.forall_mem_map.mpr nonneg)

theorem sum_nonpos {pool : Pool} (nonpos : ∀ result ∈ pool, result.val ≤ 0) : pool.sum ≤ 0 :=
  (List.sum_le_card_nsmul _ 0 (List.forall_mem_map.mpr nonpos)).trans_eq (nsmul_zero _)

/-- Summing adds the results to what it begins with. -/
theorem val_eq_of_foldlM {pool : Pool} {start total : Score}
    (done : pool.foldlM (fun sum result => Score.narrow (sum.val + result.val)) start = .ok total) :
    total.val = start.val + pool.sum := by
  induction pool generalizing start with
  | nil =>
    cases done
    exact (Int.add_zero _).symm
  | cons result pool ih =>
    rw [List.foldlM_cons] at done
    cases step : Score.narrow (start.val + result.val) with
    | error error => rw [step] at done; cases done
    | ok next =>
      rw [step] at done
      rw [ih done, Score.narrow_eq_ok_iff.mp step]
      exact Int.add_assoc start.val result.val _

/-- A total is the exact sum. -/
theorem total_exact {pool : Pool} {total : Score} (done : pool.total = .ok total) :
    total.val = pool.sum := by
  rw [val_eq_of_foldlM done]
  exact Int.zero_add _

theorem advantage_eq_ok_iff {pool : Pool} {best : Score} :
    pool.advantage = .ok best ↔ best ∈ pool ∧ ∀ result ∈ pool, result ≤ best := by
  unfold advantage
  rw [← List.max?_eq_some_iff]
  cases pool.max? <;> simp

theorem disadvantage_eq_ok_iff {pool : Pool} {worst : Score} :
    pool.disadvantage = .ok worst ↔ worst ∈ pool ∧ ∀ result ∈ pool, worst ≤ result := by
  unfold disadvantage
  rw [← List.min?_eq_some_iff]
  cases pool.min? <;> simp

/-! ## What is left of a pool -/

theorem discardLeast_sublist (pool : Pool) : List.Sublist pool.discardLeast pool := by
  unfold discardLeast
  split
  · exact List.erase_sublist
  · exact List.nil_sublist pool

theorem discard_sublist (pool : Pool) (n : Nat) : List.Sublist (pool.discard n) pool := by
  induction n generalizing pool with
  | zero => exact List.Sublist.refl pool
  | succ n ih => exact (ih pool.discardLeast).trans pool.discardLeast_sublist

/-- The results that are kept stand in the pool in the same order. -/
theorem keep_sublist (pool : Pool) (n : Score) : List.Sublist (pool.keep n) pool := by
  unfold keep
  split
  · exact List.nil_sublist pool
  · exact pool.discard_sublist _

/-- What is left without the lowest results stands in the pool in the same order. -/
theorem drop_sublist (pool : Pool) (n : Score) : List.Sublist (pool.drop n) pool := by
  unfold drop
  split
  · exact List.nil_sublist pool
  · exact pool.discard_sublist _

end Pool

namespace Session

variable {σ : Type} [Source σ]

/-- As many faces are drawn as are asked for. -/
theorem length_drawMany (bounds : Bounds) (n : Nat) (session : Session σ) :
    (session.drawMany bounds n).1.length = n := by
  induction n generalizing session with
  | zero => rfl
  | succ n ih => rw [drawMany_succ, List.length_cons, ih]

end Session

end Tabletop
