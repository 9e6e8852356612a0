import Tabletop.Proofs.Pool
import Tabletop.Proofs.Rolls
import Tabletop.Reading

/-!
# Outcomes are consistent

An outcome stores totals and results that are computed on the way, and computes its pools from what
is stored. Both agree at every node: the outcome of a roll has the shape of its expression, and what
each node stores is what its parts and its operator or flag require.
-/

namespace Tabletop

/-- What a flag chooses from a pool: its best result, its worst result, or the results that are kept
or left when the lowest are dropped. One result is meant where no count is written. -/
def Flag.Chooses (flag : Flag) (choices selected : Pool) : Prop :=
  match flag.kind with
  | .advantage =>
    ∃ best, selected = [best] ∧ best ∈ choices ∧ ∀ result ∈ choices, result ≤ best
  | .disadvantage =>
    ∃ worst, selected = [worst] ∧ worst ∈ choices ∧ ∀ result ∈ choices, worst ≤ result
  | .keep => selected = choices.keep (flag.count.getD .one)
  | .drop => selected = choices.drop (flag.count.getD .one)
  | .grow | .shrink | .reroll => False

/-- A flag chooses among the results of its pool and leaves them in order. -/
theorem Flag.Chooses.sublist {flag : Flag} {choices selected : Pool}
    (chooses : flag.Chooses choices selected) : selected.Sublist choices := by
  unfold Flag.Chooses at chooses
  cases kind : flag.kind with
  | advantage | disadvantage =>
    simp only [kind] at chooses
    obtain ⟨result, rfl, member, _⟩ := chooses
    exact List.singleton_sublist.mpr member
  | keep =>
    simp only [kind] at chooses
    rw [chooses]
    exact choices.keep_sublist _
  | drop =>
    simp only [kind] at chooses
    rw [chooses]
    exact choices.drop_sublist _
  | grow | shrink | reroll => simp only [kind] at chooses

namespace Outcome

/-- All nodes of the outcome, parts before wholes. -/
def nodes : Outcome → List Outcome
  | .literal score => [.literal score]
  | .dice rolled => [.dice rolled]
  | .group text inner => inner.nodes ++ [.group text inner]
  | .flagged target flag choices selected total =>
    target.nodes ++ [.flagged target flag choices selected total]
  | .binary op left right total => left.nodes ++ right.nodes ++ [.binary op left right total]

/-- What the node stores is what its parts require. -/
def Consistent : Outcome → Prop
  | .literal _ => True
  | .dice rolled =>
    rolled.results.length = rolled.dice.rolls.val ∧ rolled.total.val = rolled.results.sum
  | .group text inner =>
    (group text inner).total = inner.total ∧ (group text inner).pool = inner.pool
  | .flagged target flag choices selected total =>
    target.pool = .ok choices ∧ flag.Chooses choices selected ∧ total.val = selected.sum
  | .binary op left right total => op.apply left.total right.total = .ok total

/-- The operand of a flag, asked for its results, gives the pool of the node. -/
theorem toPool_of_poolOperand {outcome : Outcome} {operand : Operand} {choices : Pool}
    (isOperand : outcome.poolOperand = .ok operand) (isPool : outcome.pool = .ok choices)
    (user : PoolUser) : operand.toPool user = .ok choices := by
  unfold poolOperand at isOperand
  split at isOperand
  · cases isOperand
    exact isPool
  · rw [isPool] at isOperand
    cases isOperand
    rfl

end Outcome

namespace Operand.Selects

theorem of_number {score total : Score} {selected : Pool}
    (selects : Selects (.number score) selected total) : selected = [score] ∧ total = score := by
  cases selects with
  | number => exact ⟨rfl, rfl⟩
  | pool isPool => cases isPool

theorem of_pool {results selected : Pool} {total : Score}
    (selects : Selects (.pool results) selected total) : selected = results := by
  cases selects with
  | pool isPool =>
    cases isPool
    rfl

/-- The total of selected results is their exact sum. -/
theorem total_exact {operand : Operand} {selected : Pool} {total : Score}
    (selects : operand.Selects selected total) : total.val = selected.sum := by
  cases selects with
  | number => exact (Int.add_zero _).symm
  | pool _ sum => exact Pool.total_exact sum

end Operand.Selects

/-- The operator of a flag gives what the flag chooses from the results of its operand. -/
theorem Flag.chooses_of_evaluate {flag : Flag} {operand result : Operand}
    {choices selected : Pool} {total : Score}
    (isPool : ∀ user, operand.toPool user = .ok choices)
    (evaluates : (Operator.ofFlag flag operand).evaluate = .ok result)
    (selects : result.Selects selected total) : flag.Chooses choices selected := by
  unfold Flag.Chooses
  unfold Operator.ofFlag at evaluates
  cases kind : flag.kind with
  | advantage =>
    simp only [kind, Operator.evaluate, isPool, RollError.bind_eq_ok_iff] at evaluates
    obtain ⟨_, same, best, found, equal⟩ := evaluates
    cases same
    cases equal
    exact ⟨best, selects.of_number.1, Pool.advantage_eq_ok_iff.mp found⟩
  | disadvantage =>
    simp only [kind, Operator.evaluate, isPool, RollError.bind_eq_ok_iff] at evaluates
    obtain ⟨_, same, worst, found, equal⟩ := evaluates
    cases same
    cases equal
    exact ⟨worst, selects.of_number.1, Pool.disadvantage_eq_ok_iff.mp found⟩
  | keep | drop =>
    simp only [kind, Operator.evaluate, isPool, RollError.bind_eq_ok_iff] at evaluates
    obtain ⟨_, same, count, amount, equal⟩ := evaluates
    cases same
    cases amount
    cases equal
    exact selects.of_pool
  | grow | shrink | reroll =>
    simp only [kind, Operator.evaluate, isPool, RollError.bind_eq_ok_iff] at evaluates
    obtain ⟨_, _, refused⟩ := evaluates
    cases refused

variable {σ : Type} [Source σ]

/-- Rolled dice are as many as the term asks for, and their total is their exact sum. -/
theorem Dice.Rolls.consistent {term : Dice} {session after : Session σ} {rolled : Rolled}
    (rolls : term.Rolls session rolled after) :
    rolled.dice = term ∧ (Outcome.dice rolled).Consistent := by
  cases rolls with
  | intro within draws sum =>
    refine ⟨rfl, ?_, Pool.total_exact sum⟩
    have length := (session.count term.rolls.val).length_drawMany term.sides.bounds term.rolls.val
    rw [draws] at length
    exact length

/-- What a flagged tree comes to is what its flag chooses from the pool of its target. -/
theorem Expr.Rolls.of_flagged {target : Expr} {flag : Flag} {session after : Session σ}
    {outcome : Outcome} (rolls : (Expr.flagged target flag).Rolls session outcome after) :
    ∃ inner choices selected total between,
      outcome = .flagged inner flag choices selected total ∧
      target.Rolls session inner between ∧ inner.pool = .ok choices ∧
      flag.Chooses choices selected ∧ total.val = selected.sum := by
  cases rolls with
  | flagged inner isOperand evaluates isPool selects =>
    have chooses := Flag.chooses_of_evaluate (Outcome.toPool_of_poolOperand isOperand isPool)
      evaluates selects
    exact ⟨_, _, _, _, _, rfl, inner, isPool, chooses, selects.total_exact⟩

/-- The outcome of a tree has its shape, and each node of it is consistent. -/
theorem Expr.Rolls.consistent {tree : Expr} {session after : Session σ} {outcome : Outcome}
    (rolls : tree.Rolls session outcome after) :
    outcome.toExpr = tree ∧ ∀ node ∈ outcome.nodes, node.Consistent := by
  induction rolls with
  | int score session => exact ⟨rfl, List.forall_mem_singleton.mpr trivial⟩
  | dice rolls =>
    obtain ⟨shape, consistent⟩ := rolls.consistent
    exact ⟨congrArg Expr.dice shape, List.forall_mem_singleton.mpr consistent⟩
  | @group text body inner _ _ rolls ih =>
    refine ⟨congrArg (Expr.group text) ih.1, List.forall_mem_append.mpr ⟨ih.2, ?_⟩⟩
    exact List.forall_mem_singleton.mpr ⟨rfl, rfl⟩
  | @flagged target flag inner _ _ _ _ _ _ _ rolls isOperand evaluates isPool selects ih =>
    refine ⟨congrArg (Expr.flagged · flag) ih.1, List.forall_mem_append.mpr ⟨ih.2, ?_⟩⟩
    have chooses := Flag.chooses_of_evaluate (Outcome.toPool_of_poolOperand isOperand isPool)
      evaluates selects
    exact List.forall_mem_singleton.mpr ⟨isPool, chooses, selects.total_exact⟩
  | binary leftRolls rightRolls applies leftIh rightIh =>
    refine ⟨congrArg₂ (Expr.binary _) leftIh.1 rightIh.1, List.forall_mem_append.mpr ⟨?_, ?_⟩⟩
    · exact List.forall_mem_append.mpr ⟨leftIh.2, rightIh.2⟩
    · exact List.forall_mem_singleton.mpr applies

/-- A roll that succeeds, from any source, under any limit and in any state of the session, has the
text and the shape of its expression, and what each node of it stores is consistent. -/
theorem Expression.roll_consistent {expression : Expression} {session after : Session σ}
    {roll : Roll} (done : expression.roll session = .ok roll after) :
    roll.text = expression.text ∧ roll.outcome.toExpr = expression.root ∧
      ∀ node ∈ roll.outcome.nodes, node.Consistent := by
  obtain ⟨text, rolls⟩ := Expression.roll_eq_ok_iff.mp done
  exact ⟨text, rolls.consistent⟩

/-- With the highest faces, the better of two dice with one added to each comes to seven. -/
theorem Expression.roll_consistent_flagged_group :
    let die : Sides := .numbered ⟨6, by decide, by decide⟩
    let body := Expr.binary .add (.dice ⟨⟨2, by decide, by decide⟩, die⟩) (.int .one)
    let expression : Expression := ⟨"(2d6+1)!adv", .flagged (.group "2d6+1" body) ⟨.adv, none⟩⟩
    parse "(2d6+1)!adv" = .ok expression ∧
      ∃ roll after, expression.roll (Session.start (some 2) Loaded.highest) = .ok roll after ∧
        roll.total.val = 7 ∧ roll.text = expression.text ∧ roll.outcome.toExpr = expression.root ∧
        ∀ node ∈ roll.outcome.nodes, node.Consistent := by
  intro die body expression
  have parsed : parse "(2d6+1)!adv" = .ok expression := by decide +kernel
  cases done : expression.roll (Session.start (some 2) Loaded.highest) with
  | ok roll after =>
    have total : roll.total.val = 7 := by
      cases done
      rfl
    exact ⟨parsed, roll, after, rfl, total, roll_consistent done⟩
  | error error after => cases done

end Tabletop
