import Tabletop.Proofs.Copies

/-!
# Selections

What is kept of a pool, or left when some of it is dropped, are its highest results. The results
left out are those that the sorted pool begins with, each deleted from where it stands first. So a
selection from a selection is one selection from the whole pool, with the same results in the same
places.
-/

namespace Tabletop

/-- Scores are compared by their values. -/
theorem Score.val_min (a b : Score) : (min a b).val = min a.val b.val :=
  Monotone.map_min fun _ _ le => le

namespace Pool

variable {pool : Pool} {least : Score}

/-- The results in ascending order. -/
def sorted (pool : Pool) : Pool :=
  pool.insertionSort (· ≤ ·)

/-- Results of the pool are kept in their order, none that is left out is above one that is kept,
and of equal results the first ones are left out. -/
structure Highest (pool kept : Pool) : Prop where
  sublist : List.Sublist kept pool
  out_le : ∀ out ∈ (pool : Multiset Score) - (kept : Multiset Score), ∀ result ∈ kept, out ≤ result
  latest : kept = lastCopies kept.count pool

/-! ## Discarding from a sorted pool -/

theorem sorted_perm (pool : Pool) : pool.sorted.Perm pool :=
  List.perm_insertionSort (· ≤ ·) pool

theorem pairwise_sorted (pool : Pool) : pool.sorted.Pairwise (· ≤ ·) :=
  List.pairwise_insertionSort (· ≤ ·) pool

/-- A sorted pool begins with its least result. -/
theorem sorted_of_min? (isLeast : pool.min? = some least) :
    pool.sorted = least :: sorted (pool.erase least) := by
  obtain ⟨member, bound⟩ := List.min?_eq_some_iff.mp isLeast
  have perm : (least :: sorted (pool.erase least)).Perm pool :=
    ((sorted_perm _).cons least).trans (List.perm_cons_erase member).symm
  have ascending : (least :: sorted (pool.erase least)).Pairwise (· ≤ ·) :=
    List.pairwise_cons.mpr ⟨fun result inside =>
      bound result (perm.subset (List.mem_cons_of_mem least inside)), pairwise_sorted _⟩
  exact ((sorted_perm pool).trans perm.symm).eq_of_pairwise' (pairwise_sorted pool) ascending

/-- The results that are discarded are the ones that the sorted pool begins with. -/
theorem discard_eq_diff (pool : Pool) (n : Nat) :
    pool.discard n = List.diff pool (List.take n pool.sorted) := by
  induction n generalizing pool with
  | zero => rfl
  | succ n ih =>
    rw [discard, ih]
    cases isLeast : pool.min? with
    | none =>
      cases List.min?_eq_none_iff.mp isLeast
      exact (List.nil_diff _).trans (List.nil_diff _).symm
    | some least =>
      rw [discardLeast, isLeast, sorted_of_min? isLeast, List.take_succ_cons, List.diff_cons]

/-- What is left are the results that the sorted pool ends with. -/
theorem discard_perm_drop (pool : Pool) (n : Nat) :
    (pool.discard n).Perm (List.drop n pool.sorted) := by
  have whole :
      (pool : Multiset Score) = ↑(List.take n pool.sorted) + ↑(List.drop n pool.sorted) := by
    rw [Multiset.coe_add, List.take_append_drop]
    exact (Multiset.coe_eq_coe.mpr pool.sorted_perm).symm
  rw [discard_eq_diff, ← Multiset.coe_eq_coe, ← Multiset.coe_sub, whole, add_tsub_cancel_left]

theorem length_discard (pool : Pool) (n : Nat) : (pool.discard n).length = pool.length - n := by
  rw [(discard_perm_drop pool n).length_eq, List.length_drop, pool.sorted_perm.length_eq]

theorem highest_discard (pool : Pool) (n : Nat) : pool.Highest (pool.discard n) := by
  refine ⟨pool.discard_sublist n, fun out isOut result isKept => ?_, ?_⟩
  · have whole : (pool : Multiset Score) = ↑(List.take n pool.sorted) + ↑(pool.discard n) := by
      rw [Multiset.coe_eq_coe.mpr (pool.discard_perm_drop n), Multiset.coe_add,
        List.take_append_drop]
      exact (Multiset.coe_eq_coe.mpr pool.sorted_perm).symm
    rw [whole, add_tsub_cancel_right, Multiset.mem_coe] at isOut
    have ascending := pool.pairwise_sorted
    rw [← List.take_append_drop n pool.sorted] at ascending
    exact (List.pairwise_append.mp ascending).2.2 out isOut result
      ((pool.discard_perm_drop n).subset isKept)
  · rw [discard_eq_diff]
    exact diff_eq_lastCopies _ _

/-! ## Keeping and dropping -/

theorem discard_eq_nil {n : Nat} (all : pool.length ≤ n) : pool.discard n = [] :=
  List.eq_nil_of_length_eq_zero ((pool.length_discard n).trans (Nat.sub_eq_zero_of_le all))

/-- To discard more results than there are is to discard all of them. -/
theorem discard_congr {m n : Nat} (same : min m pool.length = min n pool.length) :
    pool.discard m = pool.discard n := by
  by_cases all : pool.length ≤ m
  · rw [discard_eq_nil all, discard_eq_nil (by omega)]
  · exact congrArg pool.discard (by omega)

theorem keep_eq_discard (pool : Pool) (n : Score) :
    pool.keep n = pool.discard (pool.length - n.val.toNat) := by
  unfold keep
  split
  · exact (discard_eq_nil (by omega)).symm
  · rfl

theorem drop_eq_discard (pool : Pool) (n : Score) :
    pool.drop n = pool.discard n.val.toNat := by
  unfold drop
  split
  · exact (discard_eq_nil (by omega)).symm
  · rfl

theorem highest_keep (pool : Pool) (n : Score) : pool.Highest (pool.keep n) := by
  rw [keep_eq_discard]
  exact pool.highest_discard _

theorem highest_drop (pool : Pool) (n : Score) : pool.Highest (pool.drop n) := by
  rw [drop_eq_discard]
  exact pool.highest_discard _

/-- Keeping some results is dropping all the others. -/
theorem keep_eq_drop {n others : Score} (nonneg : 0 ≤ n.val) (within : n.val ≤ pool.length)
    (rest : others.val = pool.length - n.val) : pool.keep n = pool.drop others := by
  rw [keep_eq_discard, drop_eq_discard]
  exact congrArg pool.discard (by omega)

/-- The highest results are kept, as many as are asked for if there are so many; and where as many
as are asked for are dropped, the highest are left. Negative counts stand for none. To keep some
results is to drop all the others. -/
theorem keep_drop_highest (pool : Pool) (n : Score) :
    (pool.Highest (pool.keep n) ∧
      ((pool.keep n).length : Int) = min (max n.val 0) pool.length) ∧
    (pool.Highest (pool.drop n) ∧
      ((pool.drop n).length : Int) = pool.length - min (max n.val 0) pool.length) ∧
    ∀ others : Score, 0 ≤ n.val → n.val ≤ pool.length → others.val = pool.length - n.val →
      pool.keep n = pool.drop others := by
  refine ⟨⟨pool.highest_keep n, ?_⟩, ⟨pool.highest_drop n, ?_⟩, fun _ => keep_eq_drop⟩
  · rw [keep_eq_discard, length_discard]
    omega
  · rw [drop_eq_discard, length_discard]
    omega

/-- Of three, four, three and one, two are kept: the first three is left out, and the one. -/
theorem keep_drop_highest_tied :
    let one : Score := ⟨1, by decide⟩
    let two : Score := ⟨2, by decide⟩
    let three : Score := ⟨3, by decide⟩
    let four : Score := ⟨4, by decide⟩
    let pool : Pool := [three, four, three, one]
    pool.keep two = [four, three] ∧ pool.Highest [four, three] ∧ pool.keep two = pool.drop two := by
  intro one two three four pool
  have kept : pool.keep two = [four, three] := rfl
  obtain ⟨⟨highest, _⟩, _, same⟩ := keep_drop_highest pool two
  rw [kept] at highest
  exact ⟨kept, highest, same two (by decide) (by decide) rfl⟩

/-! ## Selections from selections -/

theorem discard_discard (pool : Pool) (m n : Nat) :
    (pool.discard m).discard n = pool.discard (m + n) := by
  induction m generalizing pool with
  | zero => rw [Nat.zero_add, discard]
  | succ m ih => rw [Nat.succ_add, discard, discard, ih]

theorem drop_drop (pool : Pool) {a b sum : Score} (first : 0 ≤ a.val) (second : 0 ≤ b.val)
    (isSum : sum.val = a.val + b.val) : (pool.drop a).drop b = pool.drop sum := by
  simp only [drop_eq_discard, discard_discard]
  exact congrArg pool.discard (by omega)

theorem keep_keep (pool : Pool) (a b : Score) : (pool.keep a).keep b = pool.keep (min a b) := by
  have value := Score.val_min a b
  simp only [keep_eq_discard, discard_discard, length_discard]
  exact congrArg pool.discard (by omega)

theorem keep_drop (pool : Pool) {a b count : Score} (first : 0 ≤ a.val)
    (isCount : count.val = min b.val (pool.length - min a.val pool.length)) :
    (pool.drop a).keep b = pool.keep count := by
  simp only [keep_eq_discard, drop_eq_discard, discard_discard, length_discard]
  exact discard_congr (by omega)

theorem drop_keep (pool : Pool) {a b count : Score} (second : 0 ≤ b.val)
    (isCount : count.val = max 0 (min a.val pool.length - b.val)) :
    (pool.keep a).drop b = pool.keep count := by
  simp only [keep_eq_discard, drop_eq_discard, discard_discard]
  exact discard_congr (by omega)

/-- Two selections one after the other come to one selection, with the same list of results. -/
theorem keep_drop_compose (pool : Pool) {a b : Score} (first : 0 ≤ a.val) (second : 0 ≤ b.val) :
    (∀ sum : Score, sum.val = a.val + b.val → (pool.drop a).drop b = pool.drop sum) ∧
    (pool.keep a).keep b = pool.keep (min a b) ∧
    (∃ count : Score, count.val = min b.val (pool.length - min a.val pool.length) ∧
      (pool.drop a).keep b = pool.keep count) ∧
    ∃ count : Score, count.val = max 0 (min a.val pool.length - b.val) ∧
      (pool.keep a).drop b = pool.keep count := by
  have firstFits := a.fits
  have secondFits := b.fits
  have dropped : Score.Fits (min b.val (pool.length - min a.val pool.length)) := by omega
  have kept : Score.Fits (max 0 (min a.val pool.length - b.val)) := by omega
  exact ⟨fun _ => pool.drop_drop first second, pool.keep_keep a b,
    ⟨⟨_, dropped⟩, rfl, pool.keep_drop first rfl⟩, ⟨⟨_, kept⟩, rfl, pool.drop_keep second rfl⟩⟩

/-- Of three, four, three, one and five, the lowest results are taken away in two steps. -/
theorem keep_drop_compose_tied :
    let one : Score := ⟨1, by decide⟩
    let two : Score := ⟨2, by decide⟩
    let three : Score := ⟨3, by decide⟩
    let four : Score := ⟨4, by decide⟩
    let five : Score := ⟨5, by decide⟩
    let pool : Pool := [three, four, three, one, five]
    0 ≤ two.val ∧ 0 ≤ one.val ∧ pool.drop two = [four, three, five] ∧
      (pool.drop two).drop one = pool.drop three ∧ (pool.keep two).keep one = pool.keep one ∧
      (∃ count : Score, count.val = 1 ∧ (pool.drop two).keep one = pool.keep count) ∧
      ∃ count : Score, count.val = 1 ∧ (pool.keep two).drop one = pool.keep count := by
  intro one two three four five pool
  have first : 0 ≤ two.val := by decide
  have second : 0 ≤ one.val := by decide
  obtain ⟨drops, keeps, dropped, kept⟩ := keep_drop_compose pool first second
  exact ⟨first, second, rfl, drops three rfl, keeps, dropped, kept⟩

end Pool

end Tabletop
