import Tabletop.Outcome.Render
import Tabletop.Proofs.Marking

/-!
# Matching a pool with what is selected

The marks of a pool come from a scan: each result takes an equal one out of those that are still to
be matched, if there is one. Which of several equal ones is taken and in what order the others are
left makes no difference to the marks. A result is marked exactly if fewer of its equals stand
before it than are selected.
-/

namespace Tabletop

namespace Pool

variable {pool selected : Pool} {marks : List Bool}

/-- A scan of a pool against the results that are still to be matched gives these marks. What is
left after a match may stand in any order. -/
inductive Matching : Pool → Pool → List Bool → Prop where
  | done {left : Pool} : Matching [] left []
  | matched {result : Score} {rest left others : Pool} {marks : List Bool}
      (taken : left.Perm (result :: others)) (more : Matching rest others marks) :
      Matching (result :: rest) left (true :: marks)
  | unmatched {result : Score} {rest left : Pool} {marks : List Bool} (absent : result ∉ left)
      (more : Matching rest left marks) : Matching (result :: rest) left (false :: marks)

/-- Whether a result is marked where `before` stands in front of it: fewer of its equals stand there
than are selected. -/
def isMarked (selected before : Pool) (result : Score) : Bool :=
  before.count result < selected.count result

theorem isMarked_nil (selected : Pool) (result : Score) :
    isMarked selected [] result = decide (result ∈ selected) :=
  decide_eq_decide.mpr List.count_pos_iff

/-- A result in front uses up one of its equals. -/
theorem isMarked_cons_of_perm {left others before : Pool} {first : Score}
    (taken : left.Perm (first :: others)) (result : Score) :
    isMarked left (first :: before) result = isMarked others before result := by
  refine decide_eq_decide.mpr ?_
  rw [taken.count_eq, List.count_cons, List.count_cons]
  exact Nat.add_lt_add_iff_right

/-- A result in front that is not to be matched makes no difference. -/
theorem isMarked_cons_of_not_mem {left before : Pool} {first : Score} (absent : first ∉ left)
    (result : Score) : isMarked left (first :: before) result = isMarked left before result := by
  refine decide_eq_decide.mpr ?_
  by_cases same : first = result
  · subst same
    rw [List.count_eq_zero.mpr absent]
    exact iff_of_false (Nat.not_lt_zero _) (Nat.not_lt_zero _)
  · rw [List.count_cons_of_ne same]

/-- A result is marked by how many of its equals stand before it. -/
theorem Matching.marks_eq (matching : Matching pool selected marks) :
    marks = pool.mapIdx fun place result => isMarked selected (pool.take place) result := by
  induction matching with
  | done => rfl
  | @matched result rest left others marks taken more ih =>
    rw [List.mapIdx_cons, List.take_zero, isMarked_nil, ih]
    simp only [List.take_succ_cons, isMarked_cons_of_perm taken]
    rw [decide_eq_true (taken.mem_iff.mpr List.mem_cons_self)]
  | unmatched absent more ih =>
    rw [List.mapIdx_cons, List.take_zero, isMarked_nil, ih]
    simp only [List.take_succ_cons, isMarked_cons_of_not_mem absent]
    rw [decide_eq_false absent]

/-- The scan that takes the first copy is one of them. -/
theorem matching_marks (pool selected : Pool) : Matching pool selected (pool.marks selected) := by
  induction pool generalizing selected with
  | nil => exact .done
  | cons result rest ih =>
    by_cases member : result ∈ selected
    · rw [marks, List.contains_iff_mem.mpr member]
      exact .matched (List.perm_cons_erase member) (ih _)
    · rw [marks, List.erase_of_not_mem member, List.contains_eq_mem, decide_eq_false member]
      exact .unmatched member (ih _)

/-- However results are taken out, the marks are the same. -/
theorem matching_iff : Matching pool selected marks ↔ marks = pool.marks selected := by
  constructor
  · intro matching
    rw [matching.marks_eq, (matching_marks pool selected).marks_eq]
  · rintro rfl
    exact matching_marks pool selected

/-- Every result of the pool has a mark of its own. -/
theorem getElem?_marks (pool selected : Pool) (place : Nat) :
    (pool.marks selected)[place]? =
      pool[place]?.map (isMarked selected (pool.take place)) := by
  rw [(matching_marks pool selected).marks_eq, List.getElem?_mapIdx]

end Pool

/-- Every result of the pool is written with its mark, and none is left out. -/
theorem Style.results_marks (style : Style) (sides : Option Sides) (pool selected : Pool) :
    style.results sides pool (pool.marks selected) =
      ", ".intercalate (pool.mapIdx fun place result =>
        style.result result sides (Pool.isMarked selected (pool.take place) result)) := by
  unfold results
  congr 1
  refine List.ext_getElem? fun place => ?_
  rw [List.getElem?_zipWith', List.getElem?_mapIdx, Pool.getElem?_marks]
  cases pool[place]? <;> rfl

namespace Expression

variable {σ : Type} [Source σ]

/-- Each flagged node of a roll that succeeds has one mark for each result it chooses from, and they
are the marks of every scan that matches these results with the selected ones. A result is marked
exactly if fewer of its equals stand before it than are selected. So the marked results are the
selected ones, each as often, and every style writes each result with its own mark. -/
theorem roll_marks_counted {expression : Expression} {session after : Session σ} {roll : Roll}
    {target : Outcome} {flag : Flag} {choices selected : Pool} {total : Score}
    (done : expression.roll session = .ok roll after)
    (node : .flagged target flag choices selected total ∈ roll.outcome.nodes) :
    (∀ marks, Pool.Matching choices selected marks ↔ marks = choices.marks selected) ∧
    (choices.marks selected).length = choices.length ∧
    (∀ place result, choices[place]? = some result →
      ((choices.marks selected)[place]? = some true ↔
        (choices.take place).count result < selected.count result)) ∧
    (choices.marked (choices.marks selected)).Perm selected ∧
    ∀ (style : Style) (sides : Option Sides),
      style.results sides choices (choices.marks selected) =
        ", ".intercalate (choices.mapIdx fun place result =>
          style.result result sides
            (decide ((choices.take place).count result < selected.count result))) := by
  obtain ⟨_, chooses, _⟩ := (roll_eq_ok_iff.mp done).2.consistent.2 _ node
  refine ⟨fun marks => Pool.matching_iff, choices.length_marks selected,
    fun place result here => ?_, chooses.cutOnce.marked_perm,
    fun style sides => style.results_marks sides choices selected⟩
  rw [Pool.getElem?_marks, here, Option.map_some, Option.some_inj]
  exact decide_eq_true_iff

/-- Of a two, a five and two more twos, the two lowest are dropped. The first of the twos is marked,
though it is the last one that stays. -/
theorem roll_marks_counted_dropped :
    let two : Score := ⟨2, by decide⟩
    let five : Score := ⟨5, by decide⟩
    let die : Sides := .numbered ⟨6, by decide, by decide⟩
    let flag : Flag := ⟨.drop, some two⟩
    let expression : Expression :=
      ⟨"4d6!drop(2)", .flagged (.dice ⟨⟨4, by decide, by decide⟩, die⟩) flag⟩
    let session := Session.start none (Loaded.sequence ([two, five, two, two].getD · two) 0)
    let choices : Pool := [two, five, two, two]
    let selected : Pool := [five, two]
    parse "4d6!drop(2)" = .ok expression ∧ ∃ roll after target total,
      expression.roll session = .ok roll after ∧
      .flagged target flag choices selected total ∈ roll.outcome.nodes ∧
      choices.marks selected = [true, true, false, false] ∧
      (choices.marked (choices.marks selected)).Perm selected ∧
      ∀ place result, choices[place]? = some result →
        ((choices.marks selected)[place]? = some true ↔
          (choices.take place).count result < selected.count result) := by
  intro two five die flag expression session choices selected
  have parsed : parse "4d6!drop(2)" = .ok expression := by decide +kernel
  obtain ⟨roll, after, target, total, done, isNode⟩ : ∃ roll after target total,
      expression.roll session = .ok roll after ∧
        .flagged target flag choices selected total ∈ roll.outcome.nodes :=
    ⟨_, _, _, _, rfl, List.mem_append_right _ (List.mem_singleton_self _)⟩
  obtain ⟨_, _, counted, same, _⟩ := roll_marks_counted done isNode
  exact ⟨parsed, roll, after, target, total, done, isNode, rfl, same, counted⟩

end Expression

end Tabletop
