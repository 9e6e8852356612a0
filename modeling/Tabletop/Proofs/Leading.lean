import Tabletop.Proofs.Arithmetic
import Tabletop.Proofs.Consistency

/-!
# What a node begins with

Arithmetic is done with each result of its left side, so the results of a node stem from the operand
that the node begins with: the one that is found by going into groups and to the left. A node has as
many results as that operand, and where the operand has a single one, so has the node, and it is the
total of the node.
-/

namespace Tabletop

/-- The operand that a tree begins with. A flagged target is an operand as a whole. -/
def Expr.leading : Expr → Expr
  | .group _ body => body.leading
  | .binary _ left _ => left.leading
  | tree => tree

/-- What the operand that a tree begins with has come to. -/
def Outcome.leading : Outcome → Outcome
  | .group _ inner => inner.leading
  | .binary _ left _ _ => left.leading
  | outcome => outcome

theorem Outcome.toExpr_leading (outcome : Outcome) :
    outcome.leading.toExpr = outcome.toExpr.leading := by
  induction outcome with
  | literal | dice | flagged => rfl
  | group text inner ih => exact ih
  | binary op left right total leftIh => exact leftIh

namespace Pool

/-- Where every result of a pool is changed, there are as many as before. -/
theorem length_of_mapM {change : Score → Except RollError Score} {pool changed : Pool}
    (done : pool.mapM change = .ok changed) : changed.length = pool.length := by
  obtain ⟨value, rfl, _⟩ := exists_map_of_mapM done
  exact List.length_map value

/-- A single result is its own sum. -/
theorem eq_singleton_of_sum {pool : Pool} {total : Score} (single : pool.length = 1)
    (sum : total.val = pool.sum) : pool = [total] := by
  obtain ⟨result, rfl⟩ := List.length_eq_one_iff.mp single
  have same : total.val = result.val := sum.trans (Int.add_zero result.val)
  rw [Score.ext same]

end Pool

namespace Outcome

/-- The nodes of a node are nodes of the outcome that it belongs to. -/
theorem mem_nodes_of_mem {outcome node inner : Outcome} (member : node ∈ outcome.nodes)
    (inside : inner ∈ node.nodes) : inner ∈ outcome.nodes := by
  induction outcome with
  | literal | dice =>
    cases List.mem_singleton.mp member
    exact inside
  | group text body ih | flagged body flag choices selected total ih =>
    rcases List.mem_append.mp member with deeper | same
    · exact List.mem_append_left _ (ih deeper)
    · cases List.mem_singleton.mp same
      exact inside
  | binary op left right total leftIh rightIh =>
    rcases List.mem_append.mp member with deeper | same
    · rcases List.mem_append.mp deeper with first | second
      · exact List.mem_append_left _ (List.mem_append_left _ (leftIh first))
      · exact List.mem_append_left _ (List.mem_append_right _ (rightIh second))
    · cases List.mem_singleton.mp same
      exact inside

theorem mem_nodes (outcome : Outcome) : outcome ∈ outcome.nodes := by
  cases outcome <;> simp [nodes]

theorem leading_mem_nodes (outcome : Outcome) : outcome.leading ∈ outcome.nodes := by
  induction outcome with
  | literal | dice | flagged => exact mem_nodes _
  | group text inner ih => exact List.mem_append_left _ ih
  | binary op left right total leftIh =>
    exact List.mem_append_left _ (List.mem_append_left _ leftIh)

/-- A pool has as many results as the operand that the node begins with. -/
theorem length_pool_of_leading {outcome : Outcome} {results changed : Pool}
    (isLeading : outcome.leading.pool = .ok results) (isPool : outcome.pool = .ok changed) :
    changed.length = results.length := by
  induction outcome generalizing changed with
  | literal | dice | flagged =>
    cases isLeading.symm.trans isPool
    rfl
  | group text inner ih => exact ih isLeading isPool
  | binary op left right total leftIh =>
    obtain ⟨before, leftPool, applies⟩ := RollError.bind_eq_ok_iff.mp isPool
    rw [Pool.length_of_mapM applies, leftIh isLeading leftPool]

/-- Where the operand that a node begins with has its total for its only result, the node has its
own: what is done with totals is done with the results as well, and cannot fail with them. -/
theorem pool_eq_total_of_leading {outcome : Outcome}
    (consistent : ∀ node ∈ outcome.nodes, node.Consistent)
    (single : outcome.leading.pool = .ok [outcome.leading.total]) :
    outcome.pool = .ok [outcome.total] := by
  induction outcome with
  | literal | dice | flagged => exact single
  | group text inner ih =>
    exact ih (fun node inside => consistent node (List.mem_append_left _ inside)) single
  | binary op left right total leftIh =>
    have inner : ∀ node ∈ left.nodes, node.Consistent := fun node inside =>
      consistent node (List.mem_append_left _ (List.mem_append_left _ inside))
    have applies : op.apply left.total right.total = .ok total := consistent _ (mem_nodes _)
    rw [pool, leftIh inner single]
    change [left.total].mapM (op.apply · right.total) = .ok [total]
    rw [List.mapM_cons, applies]
    rfl

end Outcome

namespace Expression

variable {σ : Type} [Source σ]

/-- In the outcome of a roll, a node that begins with a single die, or with a flag that chose one
result, has its total for its only result; it never fails to have it. Any other node that begins
with dice or with a flag has as many results as these, if it has any. -/
theorem roll_pool_of_leading {expression : Expression} {session after : Session σ} {roll : Roll}
    (done : expression.roll session = .ok roll after) :
    ∀ node ∈ roll.outcome.nodes,
      (∀ rolled, node.leading = .dice rolled → rolled.dice.rolls.val = 1 →
        node.pool = .ok [node.total]) ∧
      (∀ target flag choices selected total,
        node.leading = .flagged target flag choices selected total → selected.length = 1 →
          node.pool = .ok [node.total]) ∧
      ∀ results changed, node.leading.pool = .ok results → node.pool = .ok changed →
        changed.length = results.length := by
  have consistent := (roll_eq_ok_iff.mp done).2.consistent.2
  intro node member
  have inner : ∀ other ∈ node.nodes, other.Consistent := fun other inside =>
    consistent other (Outcome.mem_nodes_of_mem member inside)
  have first : node.leading.Consistent := inner _ node.leading_mem_nodes
  refine ⟨?_, ?_, fun results changed => Outcome.length_pool_of_leading⟩
  · intro rolled isDice single
    rw [isDice] at first
    have only := Pool.eq_singleton_of_sum (first.1.trans single) first.2
    refine Outcome.pool_eq_total_of_leading inner ?_
    rw [isDice]
    exact congrArg Except.ok only
  · intro target flag choices selected total isFlag single
    rw [isFlag] at first
    have only := Pool.eq_singleton_of_sum single first.2.2
    refine Outcome.pool_eq_total_of_leading inner ?_
    rw [isFlag]
    exact congrArg Except.ok only

/-- The better of two dice, in a group, less one: the flag has chosen one result, and so the whole
has one. -/
theorem roll_pool_of_leading_flagged :
    let six : Tally := ⟨6, by decide, by decide⟩
    let three : Score := ⟨3, by decide⟩
    let five : Score := ⟨5, by decide⟩
    let better := Expr.flagged (.dice ⟨⟨2, by decide, by decide⟩, .numbered six⟩) ⟨.adv, none⟩
    let expression : Expression := ⟨"(2d6!adv)-1",
      .binary .subtract (.group "2d6!adv" better) (.int .one)⟩
    let session := Session.start none (Loaded.sequence ([three, five].getD · .one) 0)
    parse "(2d6!adv)-1" = .ok expression ∧ ∃ roll after target flag choices selected total,
      expression.roll session = .ok roll after ∧ roll.outcome ∈ roll.outcome.nodes ∧
        roll.outcome.leading = .flagged target flag choices selected total ∧
        selected.length = 1 ∧ roll.total.val = 4 ∧ roll.pool = .ok [roll.total] := by
  intro six three five better expression session
  have parsed : parse "(2d6!adv)-1" = .ok expression := by decide +kernel
  obtain ⟨roll, after, done, four, target, flag, choices, selected, total, leading, single⟩ :
      ∃ roll after, expression.roll session = .ok roll after ∧ roll.total.val = 4 ∧
        ∃ target flag choices selected total,
          roll.outcome.leading = .flagged target flag choices selected total ∧
            selected.length = 1 :=
    ⟨_, _, rfl, rfl, _, _, _, _, _, rfl, rfl⟩
  have member := roll.outcome.mem_nodes
  have only := (roll_pool_of_leading done _ member).2.1 _ _ _ _ _ leading single
  exact ⟨parsed, roll, after, target, flag, choices, selected, total, done, member, leading,
    single, four, only⟩

end Expression

end Tabletop
