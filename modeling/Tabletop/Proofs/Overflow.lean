import Tabletop.Proofs.Arithmetic
import Tabletop.Proofs.Refusals
import Tabletop.Proofs.Reordering

/-!
# Where arithmetic overflows

A difference has to be a score before it is raised to one, and a sum has to be a score after every
result that is added. So either can overflow although what it is meant to come to is a score: a
difference if it lies below the range, a sum if it leaves the range and comes back. In which order
results are added makes no difference exactly if the whole sum is out of range or neither the gains
nor the losses alone are.
-/

namespace Tabletop

open Score (Fits)

/-! ## Differences -/

namespace Score

variable {a b result : Score} {error : RollError}

theorem subtract_eq_ok_iff :
    a.subtract b = .ok result ↔ Fits (a.val - b.val) ∧ result.val = max 1 (a.val - b.val) := by
  unfold subtract
  by_cases fits : Fits (a.val - b.val)
  · have raised : (max one ⟨a.val - b.val, fits⟩).val = max 1 (a.val - b.val) := val_max _ _
    rw [narrow_of_fits fits, Except.map, Except.ok.injEq, Score.ext_iff, raised]
    exact ⟨fun same => ⟨fits, same.symm⟩, fun done => done.2.symm⟩
  · rw [narrow_eq_error_iff.mpr ⟨fits, rfl⟩]
    exact iff_of_false nofun fun done => fits done.1

theorem subtract_eq_error_iff :
    a.subtract b = .error error ↔ ¬ Fits (a.val - b.val) ∧ error = .overflow := by
  unfold subtract
  by_cases fits : Fits (a.val - b.val)
  · rw [narrow_of_fits fits]
    exact iff_of_false nofun fun failed => failed.1 fits
  · rw [narrow_eq_error_iff.mpr ⟨fits, rfl⟩, Except.map, Except.error.injEq]
    exact ⟨fun same => ⟨fits, same.symm⟩, fun failed => failed.2.symm⟩

/-- A difference is raised to one, where that is a score, exactly if it is not below the range. It
is computed exactly if it is in the range, and overflows otherwise. -/
theorem subtract_floored_iff (a b : Score) :
    ((∀ result, a.subtract b = .ok result ↔ result.val = max 1 (a.val - b.val)) ↔
      -9223372036854775808 ≤ a.val - b.val) ∧
    (∀ result, a.subtract b = .ok result ↔
      Fits (a.val - b.val) ∧ result.val = max 1 (a.val - b.val)) ∧
    ∀ error, a.subtract b = .error error ↔ ¬ Fits (a.val - b.val) ∧ error = .overflow := by
  refine ⟨⟨fun floored => ?_, fun low result => ?_⟩, fun _ => subtract_eq_ok_iff,
    fun _ => subtract_eq_error_iff⟩
  · by_contra below
    have raised : one.val = max 1 (a.val - b.val) := by
      change 1 = _
      omega
    exact below (subtract_eq_ok_iff.mp ((floored one).mpr raised)).1.1
  · rw [subtract_eq_ok_iff, and_iff_right_iff_imp]
    intro raised
    have high := result.fits.2
    exact ⟨low, by omega⟩

/-- One less than the lowest score is not raised to one. A roll gets there by fate dice. -/
theorem subtract_not_floored :
    let lowest : Score := ⟨-9223372036854775808, by decide⟩
    let highest : Score := ⟨9223372036854775807, by decide⟩
    let two : Score := ⟨2, by decide⟩
    let expression : Expression := ⟨"1dF*9223372036854775807-2", .binary .subtract
      (.binary .multiply (.dice ⟨.one, .fate true⟩) (.int highest)) (.int two)⟩
    (lowest.subtract one = .error .overflow ∧ max 1 (lowest.val - one.val) = one.val ∧
      ¬ ∀ result, lowest.subtract one = .ok result ↔ result.val = max 1 (lowest.val - one.val)) ∧
    Expression.parse "1dF*9223372036854775807-2" = .ok expression ∧
      ∃ after, expression.roll (.start none Loaded.lowest) = .error .overflow after := by
  intro lowest highest two expression
  refine ⟨⟨rfl, rfl, fun floored => ?_⟩, by decide +kernel, ?_⟩
  · cases (floored one).mpr rfl
  · cases failed : expression.roll (.start none Loaded.lowest) with
    | ok roll after => cases failed
    | error error after =>
      cases failed
      exact ⟨_, rfl⟩

end Score

/-! ## Sums -/

namespace Pool

variable {pool other : Pool} {total : Score} {error : RollError}

/-- Summing succeeds if it stays in the range after every result. -/
theorem foldlM_eq_ok_iff {start : Score} :
    pool.foldlM (fun sum result => Score.narrow (sum.val + result.val)) start = .ok total ↔
      (∀ first : Pool, first <+: pool → Fits (start.val + first.sum)) ∧
        total.val = start.val + pool.sum := by
  induction pool generalizing start with
  | nil =>
    have here : start.val + sum [] = start.val := Int.add_zero _
    have stays : ∀ first : Pool, first <+: [] → Fits (start.val + first.sum) := by
      intro first empty
      rw [List.prefix_nil.mp empty, here]
      exact start.fits
    rw [and_iff_right stays, here, ← Score.ext_iff]
    exact ⟨fun done => (Except.ok.inj done).symm, fun same => congrArg Except.ok same.symm⟩
  | cons result pool ih =>
    have later (first : Pool) :
        start.val + sum (result :: first) = start.val + result.val + first.sum := by
      rw [sum_cons, Int.add_assoc]
    have stays : (∀ first : Pool, first <+: result :: pool → Fits (start.val + first.sum)) ↔
        ∀ first : Pool, first <+: pool → Fits (start.val + result.val + first.sum) := by
      constructor
      · intro fits first isFirst
        rw [← later]
        exact fits _ (List.cons_prefix_cons.mpr ⟨rfl, isFirst⟩)
      · intro fits first isFirst
        rcases List.prefix_cons_iff.mp isFirst with rfl | ⟨rest, rfl, inside⟩
        · exact (Int.add_zero start.val).symm ▸ start.fits
        · rw [later]
          exact fits rest inside
    rw [List.foldlM_cons, RollError.bind_eq_ok_iff, stays, later]
    constructor
    · rintro ⟨next, step, rest⟩
      rw [← Score.narrow_eq_ok_iff.mp step]
      exact ih.mp rest
    · rintro ⟨fits, value⟩
      have here : Fits (start.val + result.val) := by
        have := fits [] List.nil_prefix
        rwa [show start.val + result.val + sum [] = start.val + result.val from Int.add_zero _]
          at this
      exact ⟨_, Score.narrow_of_fits here, ih.mpr ⟨fits, value⟩⟩

/-- A pool has a total exactly if the sums of its first results stay in the range. -/
theorem total_eq_ok_iff :
    pool.total = .ok total ↔
      (∀ first : Pool, first <+: pool → Fits first.sum) ∧ total.val = pool.sum := by
  have zero (first : Pool) : Score.zero.val + first.sum = first.sum := Int.zero_add _
  rw [Pool.total, foldlM_eq_ok_iff, zero]
  simp only [zero]

theorem total_eq_error_iff :
    pool.total = .error error ↔
      (∃ first : Pool, first <+: pool ∧ ¬ Fits first.sum) ∧ error = .overflow := by
  constructor
  · intro failed
    refine ⟨?_, eq_overflow_of_total failed⟩
    by_contra none
    push Not at none
    have done : pool.total = .ok ⟨pool.sum, none pool List.prefix_rfl⟩ :=
      total_eq_ok_iff.mpr ⟨none, rfl⟩
    rw [done] at failed
    cases failed
  · rintro ⟨⟨first, isFirst, outside⟩, rfl⟩
    cases done : pool.total with
    | ok total => exact absurd ((total_eq_ok_iff.mp done).1 first isFirst) outside
    | error error => rw [eq_overflow_of_total done]

/-! ## Sums in another order -/

/-- What the results that are not negative come to. -/
def gains (pool : Pool) : Int :=
  sum (pool.filter (0 ≤ ·.val))

/-- What the negative results come to. -/
def losses (pool : Pool) : Int :=
  sum (pool.filter (·.val < 0))

theorem perm_gains_losses (pool : Pool) :
    (pool.filter (0 ≤ ·.val) ++ pool.filter (·.val < 0)).Perm pool := by
  have negative : pool.filter (·.val < 0) = pool.filter fun result => !decide (0 ≤ result.val) :=
    List.filter_congr fun result _ => by simp only [← Int.not_le, decide_not]
  rw [negative]
  exact List.filter_append_perm _ _

theorem sum_eq_gains_add_losses (pool : Pool) : pool.sum = pool.gains + pool.losses := by
  rw [← sum_perm pool.perm_gains_losses, sum_append, gains, losses]

theorem gains_nonneg (pool : Pool) : 0 ≤ pool.gains :=
  sum_nonneg fun _ member => by simpa using List.of_mem_filter member

theorem losses_nonpos (pool : Pool) : pool.losses ≤ 0 :=
  sum_nonpos fun _ member => Int.le_of_lt (by simpa using List.of_mem_filter member)

/-- However the results are ordered, no sum on the way is beyond the gains or the losses. -/
theorem sum_between (perm : other.Perm pool) {first : Pool} (isFirst : first <+: other) :
    pool.losses ≤ first.sum ∧ first.sum ≤ pool.gains := by
  obtain ⟨rest, rfl⟩ := isFirst
  have gains_eq : pool.gains = first.gains + gains rest := by
    rw [gains, ← sum_perm (perm.filter _), List.filter_append, sum_append, gains, gains]
  have losses_eq : pool.losses = first.losses + losses rest := by
    rw [losses, ← sum_perm (perm.filter _), List.filter_append, sum_append, losses, losses]
  have := first.sum_eq_gains_add_losses
  have := first.gains_nonneg
  have := first.losses_nonpos
  have := gains_nonneg rest
  have := losses_nonpos rest
  omega

/-- A result can be added next: one that leads back towards zero, or any one if there is none. -/
theorem exists_mem_fits {start : Score} (nonempty : pool ≠ [])
    (fits : Fits (start.val + pool.sum)) :
    ∃ result ∈ pool, Fits (start.val + result.val) := by
  obtain ⟨first, rest, rfl⟩ := List.exists_cons_of_ne_nil nonempty
  have here := start.fits
  have isFirst : first ∈ first :: rest := List.mem_cons_self
  rw [sum_cons] at fits
  rcases Int.le_total 0 start.val with positive | negative
  · by_cases back : ∃ result ∈ first :: rest, result.val ≤ 0
    · obtain ⟨result, member, _⟩ := back
      have own := result.fits
      exact ⟨result, member, by omega⟩
    · push Not at back
      have away := back first isFirst
      have more : 0 ≤ Pool.sum rest :=
        sum_nonneg fun result later => Int.le_of_lt (back result (List.mem_cons_of_mem first later))
      exact ⟨first, isFirst, by omega⟩
  · by_cases back : ∃ result ∈ first :: rest, 0 ≤ result.val
    · obtain ⟨result, member, _⟩ := back
      have own := result.fits
      exact ⟨result, member, by omega⟩
    · push Not at back
      have away := back first isFirst
      have less : Pool.sum rest ≤ 0 :=
        sum_nonpos fun result later => Int.le_of_lt (back result (List.mem_cons_of_mem first later))
      exact ⟨first, isFirst, by omega⟩

/-- In some order the sum does not leave the range, if it ends there. -/
theorem exists_perm_of_fits {start : Score} (fits : Fits (start.val + pool.sum)) :
    ∃ other : Pool, other.Perm pool ∧
      ∀ first : Pool, first <+: other → Fits (start.val + first.sum) := by
  induction size : pool.length generalizing pool start with
  | zero =>
    rw [List.length_eq_zero_iff] at size
    subst size
    refine ⟨[], .refl [], fun first empty => ?_⟩
    rwa [List.prefix_nil.mp empty]
  | succ n ih =>
    obtain ⟨result, member, next⟩ := exists_mem_fits (List.ne_nil_of_length_eq_add_one size) fits
    have taken := List.perm_cons_erase member
    have rest : Fits ((⟨_, next⟩ : Score).val + sum (pool.erase result)) := by
      rwa [Int.add_assoc, ← sum_cons, ← sum_perm taken]
    obtain ⟨other, perm, stays⟩ := ih rest (by rw [List.length_erase_of_mem member, size]; rfl)
    refine ⟨result :: other, (perm.cons result).trans taken.symm, fun first isFirst => ?_⟩
    rcases List.prefix_cons_iff.mp isFirst with rfl | ⟨others, rfl, inside⟩
    · exact (Int.add_zero start.val).symm ▸ start.fits
    · rw [sum_cons, ← Int.add_assoc]
      exact stays others inside

/-- The order of the results makes no difference exactly if the sum is out of range or neither the
gains nor the losses are. -/
theorem total_perm_iff :
    (∀ other : Pool, other.Perm pool → other.total = pool.total) ↔
      (Fits pool.sum → Fits pool.gains ∧ Fits pool.losses) := by
  constructor
  · intro same fits
    have zero (first : Pool) : Score.zero.val + first.sum = first.sum := Int.zero_add _
    obtain ⟨best, perm, stays⟩ := @exists_perm_of_fits pool Score.zero ((zero pool).symm ▸ fits)
    simp only [zero] at stays
    have done : best.total = .ok ⟨pool.sum, fits⟩ :=
      total_eq_ok_iff.mpr ⟨stays, (sum_perm perm).symm⟩
    have always {other : Pool} (perm : other.Perm pool) :
        ∀ first : Pool, first <+: other → Fits first.sum := by
      refine (@total_eq_ok_iff other ⟨pool.sum, fits⟩).mp ?_ |>.1
      rw [same other perm, ← same best ‹_›, done]
    have swapped := List.perm_append_comm.trans pool.perm_gains_losses
    exact ⟨always pool.perm_gains_losses _ (List.prefix_append _ _),
      always swapped _ (List.prefix_append _ _)⟩
  · intro bounded other perm
    by_cases fits : Fits pool.sum
    · obtain ⟨gains, losses⟩ := bounded fits
      have always {other : Pool} (perm : other.Perm pool) :
          other.total = .ok ⟨pool.sum, fits⟩ := by
        refine total_eq_ok_iff.mpr ⟨fun first isFirst => ?_, (sum_perm perm).symm⟩
        obtain ⟨low, high⟩ := sum_between perm isFirst
        exact ⟨losses.1.trans low, high.trans gains.2⟩
      rw [always perm, always (.refl pool)]
    · have overflows {other : Pool} (perm : other.Perm pool) : other.total = .error .overflow :=
        total_eq_error_iff.mpr ⟨⟨other, List.prefix_rfl, sum_perm perm ▸ fits⟩, rfl⟩
      rw [overflows perm, overflows (.refl pool)]

/-- A pool has its exact sum as a total, where that is a score, exactly if no sum on the way leaves
the range. Reordered it has the same total, or overflows again, exactly if the whole sum is out of
range or neither the gains nor the losses are. It overflows exactly if a sum on the way does. -/
theorem total_exact_iff (pool : Pool) :
    ((∀ total, pool.total = .ok total ↔ total.val = pool.sum) ↔
      (Fits pool.sum → ∀ first : Pool, first <+: pool → Fits first.sum)) ∧
    ((∀ other : Pool, other.Perm pool → other.total = pool.total) ↔
      (Fits pool.sum → Fits pool.gains ∧ Fits pool.losses)) ∧
    (∀ total, pool.total = .ok total ↔
      (∀ first : Pool, first <+: pool → Fits first.sum) ∧ total.val = pool.sum) ∧
    ∀ error, pool.total = .error error ↔
      (∃ first : Pool, first <+: pool ∧ ¬ Fits first.sum) ∧ error = .overflow := by
  refine ⟨⟨fun exact fits => ?_, fun stays total => ?_⟩, total_perm_iff,
    fun _ => total_eq_ok_iff, fun _ => total_eq_error_iff⟩
  · exact (total_eq_ok_iff.mp ((exact ⟨pool.sum, fits⟩).mpr rfl)).1
  · rw [total_eq_ok_iff, and_iff_right_iff_imp]
    intro value
    exact stays (value ▸ total.fits)

/-- The greatest score, one and minus one overflow in this order and not in the other. Fate dice in
a group that keeps all of them come to either order. -/
theorem total_not_exact :
    let highest : Score := ⟨9223372036854775807, by decide⟩
    let three : Score := ⟨3, by decide⟩
    let expression : Expression := ⟨"(3dF*9223372036854775807)!keep(3)", .flagged
      (.group "3dF*9223372036854775807" (.binary .multiply
        (.dice ⟨⟨3, by decide, by decide⟩, .fate true⟩) (.int highest))) ⟨.keep, some three⟩⟩
    let away : Pool := [highest, .one, .minusOne]
    let back : Pool := [highest, .minusOne, .one]
    let session (faces : List Score) := Session.start none (Loaded.cycle faces)
    (away.total = .error .overflow ∧ away.sum = highest.val ∧ away.Perm back ∧
      back.total = .ok highest ∧
      ¬ ∀ total, away.total = .ok total ↔ total.val = away.sum) ∧
    Expression.parse "(3dF*9223372036854775807)!keep(3)" = .ok expression ∧
    (∃ after, expression.roll (session [.one, .one, .minusOne]) = .error .overflow after) ∧
    ∃ roll after, expression.roll (session [.one, .minusOne, .one]) = .ok roll after ∧
      roll.total = highest := by
  intro highest three expression away back session
  refine ⟨⟨rfl, rfl, .cons _ (.swap _ _ _), rfl, fun exact => ?_⟩, by decide +kernel, ?_, ?_⟩
  · cases (exact highest).mpr rfl
  · cases failed : expression.roll (session [.one, .one, .minusOne]) with
    | ok roll after => cases failed
    | error error after =>
      cases failed
      exact ⟨_, rfl⟩
  · cases done : expression.roll (session [.one, .minusOne, .one]) with
    | ok roll after =>
      cases done
      exact ⟨_, _, rfl, rfl⟩
    | error error after => cases done

end Pool

end Tabletop
