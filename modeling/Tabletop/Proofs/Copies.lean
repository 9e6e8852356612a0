import Tabletop.Proofs.Pool

/-!
# Copies of equal results

A pool may hold equal results in several places. Of each result the last copies can be taken, or
the first ones, as many as wanted, and what is taken stays in its order. Where results are deleted
by value, each time the first copy, it is the last copies that are left.
-/

namespace Tabletop.Pool

variable {number : Score → Nat} {pool : Pool} {result cut : Score}

/-- Of equal results the last ones, as many as `number` says. A result stays if fewer of its equals
stand behind it than are to stay. -/
def lastCopies (number : Score → Nat) : Pool → Pool
  | [] => []
  | result :: rest =>
    if rest.count result < number result then result :: lastCopies number rest
    else lastCopies number rest

/-- Of equal results the first ones, as many as `number` says. -/
def firstCopies (number : Score → Nat) (pool : Pool) : Pool :=
  (lastCopies number pool.reverse).reverse

/-! ## Last copies -/

theorem lastCopies_sublist (number : Score → Nat) (pool : Pool) :
    List.Sublist (lastCopies number pool) pool := by
  induction pool with
  | nil => exact .slnil
  | cons result rest ih =>
    rw [lastCopies]
    split
    · exact ih.cons_cons result
    · exact ih.cons result

/-- As many copies are taken as are wanted, or all of them. -/
theorem count_lastCopies (number : Score → Nat) (pool : Pool) (result : Score) :
    (lastCopies number pool).count result = min (number result) (pool.count result) := by
  induction pool with
  | nil => exact (Nat.min_zero _).symm
  | cons first rest ih =>
    by_cases same : first = result
    · subst same
      rw [lastCopies, List.count_cons_self]
      split
      · rw [List.count_cons_self, ih]
        omega
      · rw [ih]
        omega
    · rw [lastCopies, List.count_cons_of_ne same]
      split
      · rw [List.count_cons_of_ne same, ih]
      · exact ih

/-- The copies in the second part of a pool count first. -/
theorem lastCopies_append (number : Score → Nat) (first second : Pool) :
    lastCopies number (first ++ second) =
      lastCopies (fun result => number result - second.count result) first ++
        lastCopies number second := by
  induction first with
  | nil => rfl
  | cons result rest ih =>
    have behind : (rest ++ second).count result < number result ↔
        rest.count result < number result - second.count result := by
      rw [List.count_append]
      omega
    rw [List.cons_append, lastCopies, lastCopies, ih]
    by_cases stays : rest.count result < number result - second.count result
    · rw [if_pos stays, if_pos (behind.mpr stays), List.cons_append]
    · rw [if_neg stays, if_neg fun within => stays (behind.mp within)]

/-- Of a result that does not lose all of its copies, the first one makes no difference. -/
theorem lastCopies_erase (fewer : number result < pool.count result) :
    lastCopies number (pool.erase result) = lastCopies number pool := by
  induction pool with
  | nil => exact absurd fewer (Nat.not_lt_zero _)
  | cons first rest ih =>
    by_cases same : first = result
    · subst same
      rw [List.count_cons_self] at fewer
      rw [List.erase_cons_head, lastCopies, if_neg (by omega)]
    · rw [List.count_cons_of_ne same] at fewer
      rw [List.erase_cons_tail (by simpa using same), lastCopies, lastCopies, ih fewer,
        List.count_erase_of_ne same]

/-- Where each result keeps all of its copies or none, the wanted ones are taken wherever they
stand. -/
theorem lastCopies_eq_filter
    (whole : ∀ result, number result = 0 ∨ pool.count result ≤ number result) :
    lastCopies number pool = pool.filter (0 < number ·) := by
  induction pool with
  | nil => rfl
  | cons first rest ih =>
    have inner : ∀ result, number result = 0 ∨ rest.count result ≤ number result := fun result =>
      (whole result).imp_right (List.count_le_count_cons.trans ·)
    rw [lastCopies, ih inner]
    rcases whole first with none | all
    · rw [if_neg (by omega), List.filter_cons_of_neg (by simp [none])]
    · rw [List.count_cons_self] at all
      rw [if_pos (by omega), List.filter_cons_of_pos (by simpa using Nat.zero_lt_of_lt all)]

theorem lastCopies_count (pool : Pool) : lastCopies pool.count pool = pool := by
  rw [lastCopies_eq_filter fun _ => .inr le_rfl, List.filter_eq_self]
  exact fun result member => decide_eq_true (List.count_pos_iff.mpr member)

/-- Where copies of one result alone are wanted, nothing else is taken. -/
theorem lastCopies_eq_replicate (only : ∀ result ∈ pool, number result = 0 ∨ result = cut) :
    lastCopies number pool = List.replicate (min (number cut) (pool.count cut)) cut := by
  have same : ∀ result ∈ lastCopies number pool, result = cut := by
    intro result member
    have taken : 0 < min (number result) (pool.count result) :=
      count_lastCopies number pool result ▸ List.count_pos_iff.mpr member
    exact (only result ((lastCopies_sublist number pool).subset member)).resolve_left (by omega)
  rw [← count_lastCopies, List.count_eq_length.mpr fun result member => (same result member).symm]
  exact List.eq_replicate_of_mem same

/-- Deletion by value leaves the last copies. -/
theorem diff_eq_lastCopies (pool gone : Pool) :
    List.diff pool gone = lastCopies (List.diff pool gone).count pool := by
  induction gone generalizing pool with
  | nil => exact (lastCopies_count pool).symm
  | cons result gone ih =>
    rw [List.diff_cons]
    by_cases member : result ∈ pool
    · have fewer : (List.diff (pool.erase result) gone).count result < pool.count result := by
        have left := (List.diff_sublist (pool.erase result) gone).count_le result
        have := List.count_pos_iff.mpr member
        rw [List.count_erase_self] at left
        omega
      rw [← lastCopies_erase fewer]
      exact ih (pool.erase result)
    · rw [List.erase_of_not_mem member]
      exact ih pool

/-! ## First copies -/

/-- The copies in the first part of a pool count first. -/
theorem firstCopies_append (number : Score → Nat) (first second : Pool) :
    firstCopies number (first ++ second) =
      firstCopies number first ++
        firstCopies (fun result => number result - first.count result) second := by
  simp only [firstCopies, List.reverse_append, lastCopies_append, List.count_reverse]

theorem count_firstCopies (number : Score → Nat) (pool : Pool) (result : Score) :
    (firstCopies number pool).count result = min (number result) (pool.count result) := by
  simp only [firstCopies, List.count_reverse, count_lastCopies]

theorem firstCopies_eq_filter
    (whole : ∀ result, number result = 0 ∨ pool.count result ≤ number result) :
    firstCopies number pool = pool.filter (0 < number ·) := by
  have reversed : ∀ result, number result = 0 ∨ pool.reverse.count result ≤ number result := by
    simpa only [List.count_reverse] using whole
  rw [firstCopies, lastCopies_eq_filter reversed, List.filter_reverse, List.reverse_reverse]

end Tabletop.Pool
