import Tabletop.Proofs.Consistency
import Tabletop.Proofs.Selection

/-!
# Marks of selected results

The marks of a pool go by value: of equal results the first ones are marked, while it is the last
ones that stay when others are dropped. What is marked has the results that are selected, each as
often. It has them in their order, too, unless another selected result stands between equal results
of which only some are selected.
-/

namespace Tabletop

namespace Pool

variable {number : Score → Nat} {pool selected : Pool} {cut other : Score}

/-- The results of the pool that are marked. -/
def marked (pool : Pool) (marks : List Bool) : Pool :=
  ((pool.zip marks).filter Prod.snd).map Prod.fst

/-- Of the equal results some are selected, but not all. -/
def Divided (pool selected : Pool) (result : Score) : Prop :=
  result ∈ selected ∧ selected.count result < pool.count result

/-- Of equal results the last ones are selected, and one result at most is divided. -/
structure CutOnce (pool selected : Pool) : Prop where
  latest : selected = lastCopies selected.count pool
  single : ∀ first second, pool.Divided selected first → pool.Divided selected second →
    first = second

/-- Another selected result stands between two equal results of which only some are selected. -/
def Parted (pool selected : Pool) : Prop :=
  ∃ cut other, pool.Divided selected cut ∧ other ∈ selected ∧ other ≠ cut ∧
    List.Sublist [cut, other, cut] pool

theorem whole_of_not_divided {result : Score} (undivided : ¬ pool.Divided selected result) :
    selected.count result = 0 ∨ pool.count result ≤ selected.count result := by
  by_cases member : result ∈ selected
  · exact .inr (not_lt.mp fun fewer => undivided ⟨member, fewer⟩)
  · exact .inl (List.count_eq_zero.mpr member)

/-! ## What is marked -/

/-- There is one mark for each result of the pool. -/
theorem length_marks (pool selected : Pool) : (pool.marks selected).length = pool.length := by
  induction pool generalizing selected with
  | nil => rfl
  | cons result rest ih => exact congrArg Nat.succ (ih (selected.erase result))

/-- The marks go to the first copies. -/
theorem marked_marks (pool selected : Pool) :
    pool.marked (pool.marks selected) = firstCopies selected.count pool := by
  induction pool generalizing selected with
  | nil => rfl
  | cons result rest ih =>
    have left : (fun other => selected.count other - [result].count other) =
        (selected.erase result).count := by
      funext other
      rw [List.count_erase, List.count_singleton]
    rw [← List.singleton_append, firstCopies_append, left, ← ih]
    by_cases member : result ∈ selected
    · have one : firstCopies selected.count [result] = [result] := by
        simp [firstCopies, lastCopies, member]
      simp [marked, marks, one, member]
    · have none : firstCopies selected.count [result] = [] := by
        simp [firstCopies, lastCopies, member]
      simp [marked, marks, none, member]

/-! ## First copies and last copies -/

/-- Around the results that may be divided, all copies are taken or none. -/
theorem lastCopies_around {before middle behind : Pool} (notBefore : cut ∉ before)
    (only : ∀ result ∈ middle, number result = 0 ∨ result = cut) (notBehind : cut ∉ behind)
    (whole : ∀ result, result ≠ cut →
      number result = 0 ∨ (before ++ middle ++ behind).count result ≤ number result) :
    lastCopies number (before ++ middle ++ behind) =
      before.filter (0 < number ·) ++
        List.replicate (min (number cut) (middle.count cut)) cut ++
          behind.filter (0 < number ·) := by
  have noneBefore := List.count_eq_zero.mpr notBefore
  have noneBehind := List.count_eq_zero.mpr notBehind
  simp only [List.count_append] at whole
  have last : lastCopies number behind = behind.filter (0 < number ·) := by
    refine lastCopies_eq_filter fun result => ?_
    by_cases same : result = cut
    · subst same
      omega
    · have := whole result same
      omega
  have centre : lastCopies (fun result => number result - behind.count result) middle =
      List.replicate (min (number cut) (middle.count cut)) cut := by
    rw [lastCopies_eq_replicate fun result member => (only result member).imp_left (by omega),
      noneBehind, Nat.sub_zero]
  have first : lastCopies
      (fun result => number result - behind.count result - middle.count result) before =
        before.filter (0 < number ·) := by
    rw [lastCopies_eq_filter fun result => ?_]
    · refine List.filter_congr fun result member => decide_eq_decide.mpr ?_
      have := whole result fun same => notBefore (same ▸ member)
      have := List.count_pos_iff.mpr member
      omega
    · by_cases same : result = cut
      · subst same
        omega
      · have := whole result same
        omega
  rw [lastCopies_append, lastCopies_append, first, centre, last]

/-- Copies that stand together can be taken from either end. -/
theorem firstCopies_around {before middle behind : Pool} (notBefore : cut ∉ before)
    (only : ∀ result ∈ middle, number result = 0 ∨ result = cut) (notBehind : cut ∉ behind)
    (whole : ∀ result, result ≠ cut →
      number result = 0 ∨ (before ++ middle ++ behind).count result ≤ number result) :
    firstCopies number (before ++ middle ++ behind) =
      lastCopies number (before ++ middle ++ behind) := by
  have reversed : (before ++ middle ++ behind).reverse =
      behind.reverse ++ middle.reverse ++ before.reverse := by
    simp only [List.reverse_append, List.append_assoc]
  have reversedWhole : ∀ result, result ≠ cut → number result = 0 ∨
      (behind.reverse ++ middle.reverse ++ before.reverse).count result ≤ number result := by
    simpa only [← reversed, List.count_reverse] using whole
  have around := lastCopies_around (mt List.mem_reverse.mp notBehind)
    (fun result member => only result (List.mem_reverse.mp member))
    (mt List.mem_reverse.mp notBefore) reversedWhole
  rw [firstCopies, reversed, around, lastCopies_around notBefore only notBehind whole]
  simp only [List.count_reverse, List.reverse_append, List.reverse_replicate,
    List.filter_reverse, List.reverse_reverse, List.append_assoc]

/-- Around another result that is taken wherever it stands, more of the first copies than of the
last ones are in front. -/
theorem firstCopies_ne_lastCopies {front back : Pool} (taken : 0 < number cut)
    (divided : number cut < front.count cut + back.count cut) (inFront : cut ∈ front)
    (inBack : cut ∈ back) (ne : other ≠ cut)
    (whole : front.count other + back.count other < number other) :
    firstCopies number (front ++ other :: back) ≠ lastCopies number (front ++ other :: back) := by
  have frontCopies := List.count_pos_iff.mpr inFront
  have backCopies := List.count_pos_iff.mpr inBack
  intro same
  rw [firstCopies_append, lastCopies_append, lastCopies, if_pos (by omega),
    List.append_eq_append_iff] at same
  have early := count_firstCopies number front
  have late := count_lastCopies
    (fun result => number result - (other :: back).count result) front
  have earlyCut := early cut
  have lateCut := late cut
  have earlyOther := early other
  have lateOther := late other
  rw [List.count_cons_of_ne ne] at lateCut
  rw [List.count_cons_self] at lateOther
  -- Either part of the one list begins the other; the surplus has a `cut`, but no `other`.
  rcases same with ⟨more, longer, _⟩ | ⟨more, longer, rest⟩
  · rw [longer, List.count_append] at lateCut
    omega
  · rw [longer, List.count_append] at earlyCut earlyOther
    cases more with
    | nil =>
      rw [List.count_nil] at earlyCut
      omega
    | cons result more =>
      cases (List.cons.inj rest).1
      rw [List.count_cons_self] at earlyOther
      omega

/-- A result that stands between two equal ones parts the pool between them. -/
theorem exists_split_of_sublist (inside : List.Sublist [cut, other, cut] pool) :
    ∃ front back, pool = front ++ other :: back ∧ cut ∈ front ∧ cut ∈ back := by
  obtain ⟨first, rest, rfl, inFirst, rest⟩ := List.cons_sublist_iff.mp inside
  obtain ⟨second, third, rfl, inSecond, last⟩ := List.cons_sublist_iff.mp rest
  obtain ⟨before, behind, rfl⟩ := List.append_of_mem inSecond
  refine ⟨first ++ before, behind ++ third, by simp only [List.append_assoc, List.cons_append],
    List.mem_append_left before inFirst, List.mem_append_right behind ?_⟩
  exact List.singleton_sublist.mp last

/-- A result that stands in the pool twice has a first and a last place there. -/
theorem exists_split_of_one_lt_count (twice : 1 < pool.count cut) :
    ∃ before between behind, pool = before ++ (cut :: between ++ [cut]) ++ behind ∧
      cut ∉ before ∧ cut ∉ behind := by
  obtain ⟨before, rest, rfl, notBefore⟩ :=
    List.eq_append_cons_of_mem (List.count_pos_iff.mp (Nat.zero_lt_of_lt twice))
  rw [List.count_append, List.count_eq_zero.mpr notBefore, List.count_cons_self] at twice
  have again : cut ∈ rest.reverse :=
    List.mem_reverse.mpr (List.count_pos_iff.mp (by omega))
  obtain ⟨behind, between, reversed, notBehind⟩ := List.eq_append_cons_of_mem again
  refine ⟨before, between.reverse, behind.reverse, ?_, notBefore,
    fun inside => notBehind (List.mem_reverse.mp inside)⟩
  rw [List.reverse_eq_iff.mp reversed]
  simp

/-- At a single cut the first copies are the last ones unless they are parted. -/
theorem CutOnce.firstCopies_eq_iff (once : pool.CutOnce selected) :
    firstCopies selected.count pool = selected ↔ ¬ pool.Parted selected := by
  obtain ⟨latest, single⟩ := once
  constructor
  · rintro same ⟨cut, other, divided, isSelected, ne, inside⟩
    have whole := whole_of_not_divided fun alsoDivided => ne (single other cut alsoDivided divided)
    have otherCopies := List.count_pos_iff.mpr isSelected
    obtain ⟨member, fewer⟩ := divided
    obtain ⟨front, back, rfl, inFront, inBack⟩ := exists_split_of_sublist inside
    rw [List.count_append, List.count_cons_of_ne ne] at fewer
    rw [List.count_append, List.count_cons_self] at whole
    exact firstCopies_ne_lastCopies (List.count_pos_iff.mpr member) fewer inFront inBack ne
      (by omega) (same.trans latest)
  · intro apart
    by_cases cutting : ∃ cut, pool.Divided selected cut
    · obtain ⟨cut, divided⟩ := cutting
      have twice : 1 < pool.count cut :=
        (Nat.succ_le_of_lt (List.count_pos_iff.mpr divided.1)).trans_lt divided.2
      have whole : ∀ result, result ≠ cut →
          selected.count result = 0 ∨ pool.count result ≤ selected.count result :=
        fun result ne => whole_of_not_divided fun also => ne (single result cut also divided)
      obtain ⟨before, between, behind, rfl, notBefore, notBehind⟩ :=
        exists_split_of_one_lt_count twice
      refine (firstCopies_around notBefore (fun result member => ?_) notBehind whole).trans
        latest.symm
      -- Whatever else is taken from between the first and the last copy would part them.
      by_contra neither
      obtain ⟨isSelected, ne⟩ := not_or.mp neither
      have inBetween : result ∈ between := by
        simpa only [List.mem_append, List.mem_cons, List.not_mem_nil, ne, or_false, false_or]
          using member
      refine apart ⟨cut, result, divided, ?_, ne, ?_⟩
      · exact List.count_pos_iff.mp (Nat.pos_of_ne_zero isSelected)
      · have inMiddle : List.Sublist [cut, result, cut] (cut :: between ++ [cut]) :=
          ((List.singleton_sublist.mpr inBetween).append_right [cut]).cons_cons cut
        exact (inMiddle.trans (List.sublist_append_right before _)).trans
          (List.sublist_append_left _ behind)
    · have whole := fun result =>
        whole_of_not_divided fun divided => cutting ⟨result, divided⟩
      rw [firstCopies_eq_filter whole, ← lastCopies_eq_filter whole]
      exact latest.symm

theorem CutOnce.marked_perm (once : pool.CutOnce selected) :
    (pool.marked (pool.marks selected)).Perm selected := by
  rw [marked_marks]
  refine List.perm_iff_count.mpr fun result => ?_
  rw [count_firstCopies, ← count_lastCopies selected.count, ← once.latest]

theorem CutOnce.marked_eq_iff (once : pool.CutOnce selected) :
    pool.marked (pool.marks selected) = selected ↔ ¬ pool.Parted selected := by
  rw [marked_marks]
  exact once.firstCopies_eq_iff

/-! ## Selections cut once -/

/-- The highest results are cut off at one result: a divided one is both kept and left out. -/
theorem Highest.cutOnce (highest : pool.Highest selected) : pool.CutOnce selected := by
  have isOut : ∀ result, pool.Divided selected result →
      result ∈ (pool : Multiset Score) - (selected : Multiset Score) := by
    intro result divided
    rw [← Multiset.count_pos, Multiset.count_sub, Multiset.coe_count, Multiset.coe_count]
    exact Nat.sub_pos_of_lt divided.2
  refine ⟨highest.latest, fun first second isFirst isSecond => le_antisymm ?_ ?_⟩
  · exact highest.out_le first (isOut first isFirst) second isSecond.1
  · exact highest.out_le second (isOut second isSecond) first isFirst.1

theorem cutOnce_singleton {pick : Score} (member : pick ∈ pool) : pool.CutOnce [pick] := by
  have only : ∀ result ∈ pool, List.count result [pick] = 0 ∨ result = pick := by
    intro result _
    rcases eq_or_ne result pick with same | ne
    · exact .inr same
    · exact .inl (List.count_eq_zero.mpr (mt List.mem_singleton.mp ne))
  refine ⟨?_, fun first second isFirst isSecond => ?_⟩
  · rw [lastCopies_eq_replicate only, List.count_singleton_self,
      Nat.min_eq_left (List.count_pos_iff.mpr member)]
    rfl
  · exact (List.mem_singleton.mp isFirst.1).trans (List.mem_singleton.mp isSecond.1).symm

end Pool

/-- All flags select with one cut. -/
theorem Flag.Chooses.cutOnce {flag : Flag} {choices selected : Pool}
    (chooses : flag.Chooses choices selected) : choices.CutOnce selected := by
  unfold Chooses at chooses
  cases kind : flag.kind with
  | advantage | disadvantage =>
    simp only [kind] at chooses
    obtain ⟨pick, rfl, member, _⟩ := chooses
    exact Pool.cutOnce_singleton member
  | keep =>
    simp only [kind] at chooses
    exact chooses ▸ (choices.highest_keep _).cutOnce
  | drop =>
    simp only [kind] at chooses
    exact chooses ▸ (choices.highest_drop _).cutOnce
  | grow | shrink | reroll => simp only [kind] at chooses

namespace Expression

variable {σ : Type} [Source σ]

/-- Each flagged node of a roll that succeeds has one mark for each result it chooses from. What is
marked has the results that are selected, each as often; and it is the selected list in its order
exactly if no other selected result stands between equal results of which only some are selected. -/
theorem roll_marks_selected {expression : Expression} {session after : Session σ} {roll : Roll}
    {target : Outcome} {flag : Flag} {choices selected : Pool} {total : Score}
    (done : expression.roll session = .ok roll after)
    (node : .flagged target flag choices selected total ∈ roll.outcome.nodes) :
    (choices.marks selected).length = choices.length ∧
    (choices.marked (choices.marks selected)).Perm selected ∧
    (choices.marked (choices.marks selected) = selected ↔ ¬ choices.Parted selected) := by
  obtain ⟨_, chooses, _⟩ := (roll_eq_ok_iff.mp done).2.consistent.2 _ node
  exact ⟨choices.length_marks selected, chooses.cutOnce.marked_perm,
    chooses.cutOnce.marked_eq_iff⟩

/-- Of three, three and four, two are kept. The first three is marked and the second one is kept,
which is the same list. -/
theorem roll_marks_selected_tied :
    let two : Score := ⟨2, by decide⟩
    let three : Score := ⟨3, by decide⟩
    let four : Score := ⟨4, by decide⟩
    let die : Sides := .numbered ⟨6, by decide, by decide⟩
    let flag : Flag := ⟨.keep, some two⟩
    let expression : Expression :=
      ⟨"3d6!keep(2)", .flagged (.dice ⟨⟨3, by decide, by decide⟩, die⟩) flag⟩
    let session := Session.start none (Loaded.sequence ([three, three, four].getD · three) 0)
    let choices : Pool := [three, three, four]
    let selected : Pool := [three, four]
    parse "3d6!keep(2)" = .ok expression ∧ ∃ roll after target total,
      expression.roll session = .ok roll after ∧
      .flagged target flag choices selected total ∈ roll.outcome.nodes ∧
      choices.marks selected = [true, false, true] ∧
      choices.marked (choices.marks selected) = selected ∧ ¬ choices.Parted selected := by
  intro two three four die flag expression session choices selected
  have parsed : parse "3d6!keep(2)" = .ok expression := by decide +kernel
  obtain ⟨roll, after, target, total, done, isNode⟩ : ∃ roll after target total,
      expression.roll session = .ok roll after ∧
        .flagged target flag choices selected total ∈ roll.outcome.nodes :=
    ⟨_, _, _, _, rfl, List.mem_append_right _ (List.mem_singleton_self _)⟩
  have same : choices.marked (choices.marks selected) = selected := rfl
  obtain ⟨_, _, inOrder⟩ := roll_marks_selected done isNode
  exact ⟨parsed, roll, after, target, total, done, isNode, rfl, same, inOrder.mp same⟩

/-- Of three, four and three, two are kept: four and three. What is marked reads three and four. -/
theorem roll_marks_parted :
    let two : Score := ⟨2, by decide⟩
    let three : Score := ⟨3, by decide⟩
    let four : Score := ⟨4, by decide⟩
    let die : Sides := .numbered ⟨6, by decide, by decide⟩
    let flag : Flag := ⟨.keep, some two⟩
    let expression : Expression :=
      ⟨"3d6!keep(2)", .flagged (.dice ⟨⟨3, by decide, by decide⟩, die⟩) flag⟩
    let session := Session.start none (Loaded.sequence ([three, four, three].getD · three) 0)
    let choices : Pool := [three, four, three]
    let selected : Pool := [four, three]
    parse "3d6!keep(2)" = .ok expression ∧ ∃ roll after target total,
      expression.roll session = .ok roll after ∧
      .flagged target flag choices selected total ∈ roll.outcome.nodes ∧
      choices.marks selected = [true, true, false] ∧
      choices.marked (choices.marks selected) = [three, four] ∧ [three, four] ≠ selected := by
  intro two three four die flag expression session choices selected
  have parsed : parse "3d6!keep(2)" = .ok expression := by decide +kernel
  exact ⟨parsed, _, _, _, _, rfl, List.mem_append_right _ (List.mem_singleton_self _), rfl, rfl,
    by decide⟩

end Expression

end Tabletop
