import Tabletop.Proofs.Stateful
import Tabletop.Session

/-!
# Rolls that succeed

`Expr.Rolls` says which outcome a tree can come to in a session, and in which state it leaves the
session: operands are rolled first, left before right, and what a node needs of them is said without
any failure in between. A tree is rolled successfully exactly as the relation says.
-/

namespace Tabletop

open Stateful

variable {σ : Type}

/-- The results that an operator gave, with their total. A number is its own only result. -/
inductive Operand.Selects : Operand → Pool → Score → Prop where
  | number (score : Score) : Selects (.number score) [score] score
  | pool {operand : Operand} {results : Pool} {total : Score}
      (isPool : operand.toPool .total = .ok results) (sum : results.total = .ok total) :
      Selects operand results total

theorem Operand.Selects.unique {operand : Operand} {selected otherSelected : Pool}
    {total otherTotal : Score} (selects : operand.Selects selected total)
    (other : operand.Selects otherSelected otherTotal) :
    selected = otherSelected ∧ total = otherTotal := by
  cases selects with
  | number score =>
    cases other with
    | number => exact ⟨rfl, rfl⟩
    | pool isPool => cases isPool
  | pool isPool sum =>
    cases other with
    | number => cases isPool
    | pool otherIsPool otherSum =>
      cases isPool.symm.trans otherIsPool
      exact ⟨rfl, Except.ok.inj (sum.symm.trans otherSum)⟩

/-! ## Steps of a computation -/

namespace RollM

variable {α : Type} {session after : Session σ}

theorem lift_eq_ok_iff {result : Except RollError α} {value : α} :
    lift result session = .ok value after ↔ result = .ok value ∧ session = after := by
  cases result with
  | ok found =>
    constructor
    · intro done
      cases done
      exact ⟨rfl, rfl⟩
    · rintro ⟨same, rfl⟩
      cases same
      rfl
  | error error =>
    constructor
    · intro done
      cases done
    · rintro ⟨same, _⟩
      cases same

theorem modify_eq_ok_iff {change : Session σ → Session σ} {done : Unit} :
    (modify change : RollM σ Unit) session = .ok done after ↔ change session = after := by
  constructor
  · intro same
    cases same
    rfl
  · rintro rfl
    rfl

theorem modifyGet_eq_ok_iff {take : Session σ → α × Session σ} {value : α} :
    (modifyGet take : RollM σ α) session = .ok value after ↔ take session = (value, after) := by
  change (match take session with | (found, next) => EStateM.Result.ok found next) = _ ↔ _
  constructor
  · intro done
    cases done
    rfl
  · intro same
    rw [same]

theorem record_eq_ok_iff {step : Step} {done : Unit} :
    record step session = .ok done after ↔ session.record (.step step) = after :=
  modify_eq_ok_iff

/-- Dice may be counted if the limit is not exceeded then. -/
theorem count_eq_ok_iff {n : Nat} {done : Unit} :
    count n session = .ok done after ↔
      (session.count n).exceeded = false ∧ session.count n = after := by
  unfold count
  rw [bind_eq_ok_iff]
  constructor
  · rintro ⟨_, counted, changed, rest⟩
    rw [modify_eq_ok_iff] at changed
    subst changed
    obtain ⟨found, between, got, last⟩ := bind_eq_ok_iff.mp rest
    cases got
    cases within : (session.count n).exceeded with
    | false =>
      rw [within] at last
      cases last
      exact ⟨rfl, rfl⟩
    | true =>
      rw [within] at last
      cases last
  · rintro ⟨within, rfl⟩
    refine ⟨(), session.count n, rfl, bind_eq_ok_iff.mpr ?_⟩
    refine ⟨session.count n, session.count n, rfl, ?_⟩
    rw [within]
    rfl

theorem selection_eq_ok_iff {operand : Operand} {selected : Pool} {total : Score} :
    selection operand session = .ok (selected, total) after ↔
      operand.Selects selected total ∧ session = after := by
  unfold selection
  split
  next =>
    constructor
    · intro same
      cases same
      exact ⟨.number _, rfl⟩
    · rintro ⟨selects, rfl⟩
      cases selects with
      | number => rfl
      | pool isPool => cases isPool
  next noNumber =>
    simp only [bind_eq_ok_iff, lift_eq_ok_iff, pure_eq_ok_iff]
    constructor
    · rintro ⟨results, _, ⟨isPool, rfl⟩, _, _, ⟨sum, rfl⟩, equal, rfl⟩
      cases equal
      exact ⟨.pool isPool sum, rfl⟩
    · rintro ⟨selects, rfl⟩
      cases selects with
      | number => exact absurd rfl (noNumber _)
      | pool isPool sum => exact ⟨_, session, ⟨isPool, rfl⟩, _, session, ⟨sum, rfl⟩, rfl, rfl⟩

end RollM

/-- A computation without a session succeeds if its first part does and the rest does with it. -/
theorem RollError.bind_eq_ok_iff {α β : Type} {first : Except RollError α}
    {next : α → Except RollError β} {value : β} :
    (first >>= next) = .ok value ↔ ∃ middle, first = .ok middle ∧ next middle = .ok value := by
  cases first with
  | ok middle =>
    constructor
    · intro done
      exact ⟨middle, rfl, done⟩
    · rintro ⟨_, same, done⟩
      cases same
      exact done
  | error error =>
    constructor
    · intro done
      cases done
    · rintro ⟨_, same, _⟩
      cases same

/-! ## Rolls of dice -/

/-- The dice of a term are within the limit, all of them are drawn, and their sum is a score. -/
inductive Dice.Rolls [Source σ] (term : Dice) (session : Session σ) :
    Rolled → Session σ → Prop where
  | intro {results : Pool} {drawn : Session σ} {total : Score}
      (within : (session.count term.rolls.val).exceeded = false)
      (draws : (session.count term.rolls.val).drawMany term.sides.bounds term.rolls.val =
        (results, drawn))
      (sum : results.total = .ok total) :
      Rolls term session ⟨term, results, total⟩
        (drawn.record (.step (.rolled ⟨term, results, total⟩)))

theorem Dice.roll_eq_ok_iff [Source σ] {term : Dice} {session after : Session σ}
    {rolled : Rolled} :
    term.roll session = .ok rolled after ↔ term.Rolls session rolled after := by
  unfold Dice.roll
  constructor
  · intro done
    obtain ⟨_, _, counted, rest⟩ := bind_eq_ok_iff.mp done
    obtain ⟨within, rfl⟩ := RollM.count_eq_ok_iff.mp counted
    obtain ⟨results, drawn, draws, rest⟩ := bind_eq_ok_iff.mp rest
    obtain ⟨total, _, summed, rest⟩ := bind_eq_ok_iff.mp rest
    obtain ⟨sum, rfl⟩ := RollM.lift_eq_ok_iff.mp summed
    obtain ⟨_, _, recorded, rest⟩ := bind_eq_ok_iff.mp rest
    cases RollM.record_eq_ok_iff.mp recorded
    obtain ⟨rfl, rfl⟩ := pure_eq_ok_iff.mp rest
    exact .intro within (RollM.modifyGet_eq_ok_iff.mp draws) sum
  · rintro ⟨within, draws, sum⟩
    refine bind_eq_ok_iff.mpr ⟨(), _, RollM.count_eq_ok_iff.mpr ⟨within, rfl⟩, ?_⟩
    refine bind_eq_ok_iff.mpr ⟨_, _, RollM.modifyGet_eq_ok_iff.mpr draws, ?_⟩
    refine bind_eq_ok_iff.mpr ⟨_, _, RollM.lift_eq_ok_iff.mpr ⟨sum, rfl⟩, ?_⟩
    exact bind_eq_ok_iff.mpr ⟨(), _, RollM.record_eq_ok_iff.mpr rfl, rfl⟩

/-! ## Rolls of trees -/

/-- Arithmetic takes the total of a node, whatever the node is. -/
theorem Outcome.toScore_numberOperand (outcome : Outcome) :
    outcome.numberOperand.toScore = .ok outcome.total := by
  cases outcome <;> rfl

/-- An arithmetic operator on the totals of two nodes gives a number. -/
theorem Operator.evaluate_binary_eq_ok_iff {op : BinaryOp} {left right : Outcome}
    {result : Operand} :
    (binary op left.numberOperand right.numberOperand).evaluate = .ok result ↔
      ∃ total, op.apply left.total right.total = .ok total ∧ result = .number total := by
  have evaluates : (binary op left.numberOperand right.numberOperand).evaluate =
      op.apply left.total right.total >>= fun total => pure (.number total) := by
    simp only [evaluate, left.toScore_numberOperand, right.toScore_numberOperand]
    rfl
  rw [evaluates, RollError.bind_eq_ok_iff]
  refine exists_congr fun total => and_congr_right fun _ => ⟨fun same => ?_, fun same => ?_⟩
  · cases same
    rfl
  · rw [same]
    rfl

/-- What a tree comes to in a session, and how it leaves the session. -/
inductive Expr.Rolls [Source σ] : Expr → Session σ → Outcome → Session σ → Prop where
  | int (score : Score) (session : Session σ) :
      Rolls (.int score) session (.literal score) session
  | dice {term : Dice} {rolled : Rolled} {session after : Session σ}
      (rolls : term.Rolls session rolled after) :
      Rolls (.dice term) session (.dice rolled) after
  | group {text : String} {body : Expr} {inner : Outcome} {session after : Session σ}
      (rolls : Rolls body session inner after) :
      Rolls (.group text body) session (.group text inner) after
  | flagged {target : Expr} {flag : Flag} {inner : Outcome} {session after : Session σ}
      {operand result : Operand} {choices selected : Pool} {total : Score}
      (rolls : Rolls target session inner after) (isOperand : inner.poolOperand = .ok operand)
      (evaluates : (Operator.ofFlag flag operand).evaluate = .ok result)
      (isPool : inner.pool = .ok choices) (selects : result.Selects selected total) :
      Rolls (.flagged target flag) session (.flagged inner flag choices selected total)
        (after.record (.step (.selected (.ofFlag flag operand) result)))
  | binary {op : BinaryOp} {left right : Expr} {first second : Outcome}
      {session between after : Session σ} {total : Score}
      (leftRolls : Rolls left session first between)
      (rightRolls : Rolls right between second after)
      (applies : op.apply first.total second.total = .ok total) :
      Rolls (.binary op left right) session (.binary op first second total)
        (after.record (.step
          (.applied (.binary op first.numberOperand second.numberOperand) (.number total))))

theorem Expr.roll_eq_ok_iff [Source σ] {tree : Expr} {session after : Session σ}
    {outcome : Outcome} :
    tree.roll session = .ok outcome after ↔ tree.Rolls session outcome after := by
  induction tree generalizing session after outcome with
  | int score =>
    constructor
    · intro done
      cases done
      exact .int score session
    · intro rolls
      cases rolls
      rfl
  | dice term =>
    unfold Expr.roll
    constructor
    · intro done
      obtain ⟨rolled, _, termDone, rest⟩ := bind_eq_ok_iff.mp done
      obtain ⟨rfl, rfl⟩ := pure_eq_ok_iff.mp rest
      exact .dice (Dice.roll_eq_ok_iff.mp termDone)
    · rintro (_ | rolls)
      exact bind_eq_ok_iff.mpr ⟨_, _, Dice.roll_eq_ok_iff.mpr rolls, rfl⟩
  | group text body ih =>
    unfold Expr.roll
    constructor
    · intro done
      obtain ⟨inner, _, innerDone, rest⟩ := bind_eq_ok_iff.mp done
      obtain ⟨rfl, rfl⟩ := pure_eq_ok_iff.mp rest
      exact .group (ih.mp innerDone)
    · rintro (_ | _ | rolls)
      exact bind_eq_ok_iff.mpr ⟨_, _, ih.mpr rolls, rfl⟩
  | flagged target flag ih =>
    unfold Expr.roll
    constructor
    · intro done
      obtain ⟨inner, _, innerDone, rest⟩ := bind_eq_ok_iff.mp done
      obtain ⟨operand, _, taken, rest⟩ := bind_eq_ok_iff.mp rest
      obtain ⟨isOperand, rfl⟩ := RollM.lift_eq_ok_iff.mp taken
      obtain ⟨result, _, evaluated, rest⟩ := bind_eq_ok_iff.mp rest
      obtain ⟨evaluates, rfl⟩ := RollM.lift_eq_ok_iff.mp evaluated
      obtain ⟨choices, _, pooled, rest⟩ := bind_eq_ok_iff.mp rest
      obtain ⟨isPool, rfl⟩ := RollM.lift_eq_ok_iff.mp pooled
      obtain ⟨_, _, recorded, rest⟩ := bind_eq_ok_iff.mp rest
      cases RollM.record_eq_ok_iff.mp recorded
      obtain ⟨⟨selected, total⟩, _, chosen, rest⟩ := bind_eq_ok_iff.mp rest
      obtain ⟨selects, rfl⟩ := RollM.selection_eq_ok_iff.mp chosen
      obtain ⟨rfl, rfl⟩ := pure_eq_ok_iff.mp rest
      exact .flagged (ih.mp innerDone) isOperand evaluates isPool selects
    · rintro (_ | _ | _ | ⟨rolls, isOperand, evaluates, isPool, selects⟩)
      refine bind_eq_ok_iff.mpr ⟨_, _, ih.mpr rolls, ?_⟩
      refine bind_eq_ok_iff.mpr ⟨_, _, RollM.lift_eq_ok_iff.mpr ⟨isOperand, rfl⟩, ?_⟩
      refine bind_eq_ok_iff.mpr ⟨_, _, RollM.lift_eq_ok_iff.mpr ⟨evaluates, rfl⟩, ?_⟩
      refine bind_eq_ok_iff.mpr ⟨_, _, RollM.lift_eq_ok_iff.mpr ⟨isPool, rfl⟩, ?_⟩
      refine bind_eq_ok_iff.mpr ⟨(), _, RollM.record_eq_ok_iff.mpr rfl, ?_⟩
      exact bind_eq_ok_iff.mpr ⟨_, _, RollM.selection_eq_ok_iff.mpr ⟨selects, rfl⟩, rfl⟩
  | binary op left right leftIh rightIh =>
    unfold Expr.roll
    constructor
    · intro done
      obtain ⟨first, between, leftDone, rest⟩ := bind_eq_ok_iff.mp done
      obtain ⟨second, _, rightDone, rest⟩ := bind_eq_ok_iff.mp rest
      obtain ⟨result, _, evaluated, rest⟩ := bind_eq_ok_iff.mp rest
      obtain ⟨evaluates, rfl⟩ := RollM.lift_eq_ok_iff.mp evaluated
      obtain ⟨total, applies, rfl⟩ := Operator.evaluate_binary_eq_ok_iff.mp evaluates
      obtain ⟨_, _, recorded, rest⟩ := bind_eq_ok_iff.mp rest
      cases RollM.record_eq_ok_iff.mp recorded
      obtain ⟨_, _, scored, rest⟩ := bind_eq_ok_iff.mp rest
      obtain ⟨same, rfl⟩ := RollM.lift_eq_ok_iff.mp scored
      cases same
      obtain ⟨rfl, rfl⟩ := pure_eq_ok_iff.mp rest
      exact .binary (leftIh.mp leftDone) (rightIh.mp rightDone) applies
    · rintro (_ | _ | _ | _ | ⟨leftRolls, rightRolls, applies⟩)
      have evaluates := Operator.evaluate_binary_eq_ok_iff.mpr ⟨_, applies, rfl⟩
      refine bind_eq_ok_iff.mpr ⟨_, _, leftIh.mpr leftRolls, ?_⟩
      refine bind_eq_ok_iff.mpr ⟨_, _, rightIh.mpr rightRolls, ?_⟩
      refine bind_eq_ok_iff.mpr ⟨_, _, RollM.lift_eq_ok_iff.mpr ⟨evaluates, rfl⟩, ?_⟩
      refine bind_eq_ok_iff.mpr ⟨(), _, RollM.record_eq_ok_iff.mpr rfl, ?_⟩
      exact bind_eq_ok_iff.mpr ⟨_, _, RollM.lift_eq_ok_iff.mpr ⟨rfl, rfl⟩, rfl⟩

/-- An expression is rolled like its tree in a session that has counted no dice yet. -/
theorem Expression.roll_eq_ok_iff [Source σ] {expression : Expression} {session after : Session σ}
    {roll : Roll} :
    expression.roll session = .ok roll after ↔
      roll.text = expression.text ∧
        expression.root.Rolls { session with counted := 0 } roll.outcome after := by
  unfold Expression.roll
  constructor
  · intro done
    obtain ⟨_, _, reset, rest⟩ := bind_eq_ok_iff.mp done
    cases RollM.modify_eq_ok_iff.mp reset
    obtain ⟨outcome, _, treeDone, rest⟩ := bind_eq_ok_iff.mp rest
    obtain ⟨rfl, rfl⟩ := pure_eq_ok_iff.mp rest
    exact ⟨rfl, Expr.roll_eq_ok_iff.mp treeDone⟩
  · rintro ⟨sameText, rolls⟩
    obtain ⟨text, outcome⟩ := roll
    cases sameText
    refine bind_eq_ok_iff.mpr ⟨(), _, RollM.modify_eq_ok_iff.mpr rfl, ?_⟩
    exact bind_eq_ok_iff.mpr ⟨_, _, Expr.roll_eq_ok_iff.mpr rolls, rfl⟩

end Tabletop
