import Tabletop.Proofs.Division
import Tabletop.Proofs.Rolls

/-!
# Rolls that fail

`Expr.Fails` says how a tree can fail in a session and how far the session has come by then: dice
may be too many or their sum no score, a part may fail, or the node itself cannot make anything of
its parts. A tree fails exactly as the relation says. Only too many dice are an excess over the
limit; whatever is computed without the session fails otherwise.
-/

namespace Tabletop

open Stateful

variable {σ : Type}

/-! ## Failures of a computation -/

namespace RollM

variable {α : Type} {session after : Session σ} {error : RollError}

theorem lift_eq_error_iff {result : Except RollError α} :
    lift result session = .error error after ↔ result = .error error ∧ session = after := by
  cases result with
  | ok found =>
    constructor
    · intro failed
      cases failed
    · rintro ⟨same, _⟩
      cases same
  | error fault =>
    constructor
    · intro failed
      cases failed
      exact ⟨rfl, rfl⟩
    · rintro ⟨same, rfl⟩
      cases same
      rfl

/-- Counting fails if the limit is exceeded then; the dice stay counted. -/
theorem count_eq_error_iff {n : Nat} :
    count n session = .error error after ↔
      ((session.count n).exceeded = true ∧ error = .limitExceeded) ∧ session.count n = after := by
  unfold count
  rw [bind_eq_error_iff]
  constructor
  · rintro (failed | ⟨_, counted, changed, rest⟩)
    · cases failed
    · rw [modify_eq_ok_iff] at changed
      subst changed
      rcases bind_eq_error_iff.mp rest with failed | ⟨found, _, got, last⟩
      · cases failed
      · cases got
        cases excess : (session.count n).exceeded with
        | false =>
          rw [excess] at last
          cases last
        | true =>
          rw [excess] at last
          cases last
          exact ⟨⟨rfl, rfl⟩, rfl⟩
  · rintro ⟨⟨excess, rfl⟩, rfl⟩
    refine .inr ⟨(), session.count n, rfl, bind_eq_error_iff.mpr ?_⟩
    refine .inr ⟨session.count n, session.count n, rfl, ?_⟩
    rw [excess]
    rfl

/-- A selection fails if its results have no score for a sum. -/
theorem selection_eq_error_iff {operand : Operand} :
    selection operand session = .error error after ↔
      (∃ results, operand.toPool .total = .ok results ∧ results.total = .error error) ∧
        session = after := by
  unfold selection
  split
  next =>
    constructor
    · intro failed
      cases failed
    · rintro ⟨⟨_, isPool, _⟩, _⟩
      cases isPool
  next noNumber =>
    rw [bind_eq_error_iff]
    simp only [bind_pure_eq_error_iff, lift_eq_error_iff, lift_eq_ok_iff]
    constructor
    · rintro (⟨failed, _⟩ | ⟨results, _, ⟨isPool, rfl⟩, sum, rfl⟩)
      · cases operand with
        | number score => exact absurd rfl (noNumber score)
        | pool results => cases failed
        | dice rolled => cases failed
      · exact ⟨⟨results, isPool, sum⟩, rfl⟩
    · rintro ⟨⟨results, isPool, sum⟩, rfl⟩
      exact .inr ⟨results, session, ⟨isPool, rfl⟩, sum, rfl⟩

end RollM

/-! ## Failures of trees -/

/-- What a flag can be evaluated on has results. -/
theorem Outcome.exists_pool_of_evaluate {outcome : Outcome} {flag : Flag} {operand result : Operand}
    (isOperand : outcome.poolOperand = .ok operand)
    (evaluates : (Operator.ofFlag flag operand).evaluate = .ok result) :
    ∃ choices, outcome.pool = .ok choices := by
  unfold poolOperand at isOperand
  split at isOperand
  next rolled => exact ⟨rolled.results, rfl⟩
  next =>
    split at isOperand
    next results isPool => exact ⟨results, isPool⟩
    next =>
      cases isOperand
      unfold Operator.ofFlag at evaluates
      cases kind : flag.kind <;> rw [kind] at evaluates <;> cases evaluates
    next => cases isOperand

/-- How a tree fails in a session, and how it leaves the session. -/
inductive Expr.Fails [Source σ] : Expr → Session σ → RollError → Session σ → Prop where
  | limit {term : Dice} {session : Session σ}
      (excess : (session.count term.rolls.val).exceeded = true) :
      Fails (.dice term) session .limitExceeded (session.count term.rolls.val)
  | sum {term : Dice} {session drawn : Session σ} {results : Pool} {error : RollError}
      (within : (session.count term.rolls.val).exceeded = false)
      (draws : (session.count term.rolls.val).drawMany term.sides.bounds term.rolls.val =
        (results, drawn))
      (unsummed : results.total = .error error) :
      Fails (.dice term) session error drawn
  | group {text : String} {body : Expr} {session after : Session σ} {error : RollError}
      (fails : Fails body session error after) :
      Fails (.group text body) session error after
  | target {target : Expr} {flag : Flag} {session after : Session σ} {error : RollError}
      (fails : Fails target session error after) :
      Fails (.flagged target flag) session error after
  | operand {target : Expr} {flag : Flag} {inner : Outcome} {session after : Session σ}
      {error : RollError} (rolls : target.Rolls session inner after)
      (noOperand : inner.poolOperand = .error error) :
      Fails (.flagged target flag) session error after
  | choice {target : Expr} {flag : Flag} {inner : Outcome} {session after : Session σ}
      {operand : Operand} {error : RollError} (rolls : target.Rolls session inner after)
      (isOperand : inner.poolOperand = .ok operand)
      (refuses : (Operator.ofFlag flag operand).evaluate = .error error) :
      Fails (.flagged target flag) session error after
  | selection {target : Expr} {flag : Flag} {inner : Outcome} {session after : Session σ}
      {operand result : Operand} {selected : Pool} {error : RollError}
      (rolls : target.Rolls session inner after) (isOperand : inner.poolOperand = .ok operand)
      (evaluates : (Operator.ofFlag flag operand).evaluate = .ok result)
      (isPool : result.toPool .total = .ok selected) (unsummed : selected.total = .error error) :
      Fails (.flagged target flag) session error
        (after.record (.step (.selected (.ofFlag flag operand) result)))
  | left {op : BinaryOp} {left right : Expr} {session after : Session σ} {error : RollError}
      (fails : Fails left session error after) :
      Fails (.binary op left right) session error after
  | right {op : BinaryOp} {left right : Expr} {first : Outcome}
      {session between after : Session σ} {error : RollError}
      (rolls : left.Rolls session first between) (fails : Fails right between error after) :
      Fails (.binary op left right) session error after
  | operator {op : BinaryOp} {left right : Expr} {first second : Outcome}
      {session between after : Session σ} {error : RollError}
      (leftRolls : left.Rolls session first between)
      (rightRolls : right.Rolls between second after)
      (refuses : op.apply first.total second.total = .error error) :
      Fails (.binary op left right) session error after

/-- An arithmetic operator fails on the totals of two nodes as its arithmetic does. -/
theorem Operator.evaluate_binary_eq_error_iff {op : BinaryOp} {left right : Outcome}
    {error : RollError} :
    (binary op left.numberOperand right.numberOperand).evaluate = .error error ↔
      op.apply left.total right.total = .error error := by
  simp only [evaluate, left.toScore_numberOperand, right.toScore_numberOperand]
  change (op.apply left.total right.total >>= fun total => pure (Operand.number total)) = _ ↔ _
  cases op.apply left.total right.total with
  | ok total =>
    constructor
    · intro failed
      cases failed
    · intro failed
      cases failed
  | error fault =>
    constructor
    · intro failed
      cases failed
      rfl
    · intro failed
      cases failed
      rfl

theorem Dice.roll_eq_error_iff [Source σ] {term : Dice} {session after : Session σ}
    {error : RollError} :
    term.roll session = .error error after ↔ (Expr.dice term).Fails session error after := by
  unfold Dice.roll
  constructor
  · intro failed
    rcases bind_eq_error_iff.mp failed with failed | ⟨_, _, counted, failed⟩
    · obtain ⟨⟨excess, rfl⟩, rfl⟩ := RollM.count_eq_error_iff.mp failed
      exact .limit excess
    obtain ⟨within, rfl⟩ := RollM.count_eq_ok_iff.mp counted
    rcases bind_eq_error_iff.mp failed with failed | ⟨results, drawn, draws, failed⟩
    · cases failed
    rcases bind_eq_error_iff.mp failed with failed | ⟨_, _, _, failed⟩
    · obtain ⟨unsummed, rfl⟩ := RollM.lift_eq_error_iff.mp failed
      exact .sum within (RollM.modifyGet_eq_ok_iff.mp draws) unsummed
    · rw [bind_pure_eq_error_iff] at failed
      cases failed
  · intro fails
    cases fails with
    | limit excess =>
      exact bind_eq_error_iff.mpr (.inl (RollM.count_eq_error_iff.mpr ⟨⟨excess, rfl⟩, rfl⟩))
    | sum within draws unsummed =>
      refine bind_eq_error_iff.mpr (.inr ⟨(), _, RollM.count_eq_ok_iff.mpr ⟨within, rfl⟩, ?_⟩)
      refine bind_eq_error_iff.mpr (.inr ⟨_, _, RollM.modifyGet_eq_ok_iff.mpr draws, ?_⟩)
      exact bind_eq_error_iff.mpr (.inl (RollM.lift_eq_error_iff.mpr ⟨unsummed, rfl⟩))

theorem Expr.roll_eq_error_iff [Source σ] {tree : Expr} {session after : Session σ}
    {error : RollError} :
    tree.roll session = .error error after ↔ tree.Fails session error after := by
  induction tree generalizing session after error with
  | int score => exact ⟨nofun, nofun⟩
  | dice term =>
    unfold Expr.roll
    rw [bind_pure_eq_error_iff, Dice.roll_eq_error_iff]
  | group text body ih =>
    unfold Expr.roll
    rw [bind_pure_eq_error_iff, ih]
    constructor
    · exact .group
    · rintro (_ | _ | fails)
      exact fails
  | flagged target flag ih =>
    unfold Expr.roll
    constructor
    · intro failed
      rcases bind_eq_error_iff.mp failed with failed | ⟨inner, _, innerDone, failed⟩
      · exact .target (ih.mp failed)
      have rolls := Expr.roll_eq_ok_iff.mp innerDone
      rcases bind_eq_error_iff.mp failed with failed | ⟨operand, _, taken, failed⟩
      · obtain ⟨noOperand, rfl⟩ := RollM.lift_eq_error_iff.mp failed
        exact .operand rolls noOperand
      obtain ⟨isOperand, rfl⟩ := RollM.lift_eq_ok_iff.mp taken
      rcases bind_eq_error_iff.mp failed with failed | ⟨result, _, evaluated, failed⟩
      · obtain ⟨refuses, rfl⟩ := RollM.lift_eq_error_iff.mp failed
        exact .choice rolls isOperand refuses
      obtain ⟨evaluates, rfl⟩ := RollM.lift_eq_ok_iff.mp evaluated
      obtain ⟨choices, isChoices⟩ := Outcome.exists_pool_of_evaluate isOperand evaluates
      rcases bind_eq_error_iff.mp failed with failed | ⟨_, _, pooled, failed⟩
      · rw [isChoices] at failed
        cases failed
      obtain ⟨_, rfl⟩ := RollM.lift_eq_ok_iff.mp pooled
      rcases bind_eq_error_iff.mp failed with failed | ⟨_, _, recorded, failed⟩
      · cases failed
      cases RollM.record_eq_ok_iff.mp recorded
      rw [bind_pure_eq_error_iff] at failed
      obtain ⟨⟨selected, isPool, unsummed⟩, rfl⟩ := RollM.selection_eq_error_iff.mp failed
      exact .selection rolls isOperand evaluates isPool unsummed
    · intro fails
      rw [bind_eq_error_iff]
      cases fails with
      | target fails => exact .inl (ih.mpr fails)
      | operand rolls noOperand =>
        refine .inr ⟨_, _, Expr.roll_eq_ok_iff.mpr rolls, bind_eq_error_iff.mpr (.inl ?_)⟩
        exact RollM.lift_eq_error_iff.mpr ⟨noOperand, rfl⟩
      | choice rolls isOperand refuses =>
        refine .inr ⟨_, _, Expr.roll_eq_ok_iff.mpr rolls, bind_eq_error_iff.mpr (.inr ?_)⟩
        refine ⟨_, _, RollM.lift_eq_ok_iff.mpr ⟨isOperand, rfl⟩, ?_⟩
        exact bind_eq_error_iff.mpr (.inl (RollM.lift_eq_error_iff.mpr ⟨refuses, rfl⟩))
      | selection rolls isOperand evaluates isPool unsummed =>
        obtain ⟨choices, isChoices⟩ := Outcome.exists_pool_of_evaluate isOperand evaluates
        refine .inr ⟨_, _, Expr.roll_eq_ok_iff.mpr rolls, bind_eq_error_iff.mpr (.inr ?_)⟩
        refine ⟨_, _, RollM.lift_eq_ok_iff.mpr ⟨isOperand, rfl⟩, ?_⟩
        refine bind_eq_error_iff.mpr (.inr ⟨_, _, RollM.lift_eq_ok_iff.mpr ⟨evaluates, rfl⟩, ?_⟩)
        refine bind_eq_error_iff.mpr (.inr ⟨_, _, RollM.lift_eq_ok_iff.mpr ⟨isChoices, rfl⟩, ?_⟩)
        refine bind_eq_error_iff.mpr (.inr ⟨(), _, RollM.record_eq_ok_iff.mpr rfl, ?_⟩)
        refine bind_eq_error_iff.mpr (.inl ?_)
        exact RollM.selection_eq_error_iff.mpr ⟨⟨_, isPool, unsummed⟩, rfl⟩
  | binary op left right leftIh rightIh =>
    unfold Expr.roll
    constructor
    · intro failed
      rcases bind_eq_error_iff.mp failed with failed | ⟨first, between, leftDone, failed⟩
      · exact .left (leftIh.mp failed)
      have leftRolls := Expr.roll_eq_ok_iff.mp leftDone
      rcases bind_eq_error_iff.mp failed with failed | ⟨second, _, rightDone, failed⟩
      · exact .right leftRolls (rightIh.mp failed)
      have rightRolls := Expr.roll_eq_ok_iff.mp rightDone
      rcases bind_eq_error_iff.mp failed with failed | ⟨result, _, evaluated, failed⟩
      · obtain ⟨refuses, rfl⟩ := RollM.lift_eq_error_iff.mp failed
        exact .operator leftRolls rightRolls (Operator.evaluate_binary_eq_error_iff.mp refuses)
      -- an operator that evaluates gives a number, and nothing after it fails
      obtain ⟨evaluates, rfl⟩ := RollM.lift_eq_ok_iff.mp evaluated
      obtain ⟨total, _, rfl⟩ := Operator.evaluate_binary_eq_ok_iff.mp evaluates
      cases failed
    · intro fails
      rw [bind_eq_error_iff]
      cases fails with
      | left fails => exact .inl (leftIh.mpr fails)
      | right rolls fails =>
        refine .inr ⟨_, _, Expr.roll_eq_ok_iff.mpr rolls, bind_eq_error_iff.mpr (.inl ?_)⟩
        exact rightIh.mpr fails
      | operator leftRolls rightRolls refuses =>
        refine .inr ⟨_, _, Expr.roll_eq_ok_iff.mpr leftRolls, bind_eq_error_iff.mpr (.inr ?_)⟩
        refine ⟨_, _, Expr.roll_eq_ok_iff.mpr rightRolls, bind_eq_error_iff.mpr (.inl ?_)⟩
        refine RollM.lift_eq_error_iff.mpr ⟨?_, rfl⟩
        exact Operator.evaluate_binary_eq_error_iff.mpr refuses

/-- An expression fails like its tree in a session that has counted no dice yet. -/
theorem Expression.roll_eq_error_iff [Source σ] {expression : Expression}
    {session after : Session σ} {error : RollError} :
    expression.roll session = .error error after ↔
      expression.root.Fails { session with counted := 0 } error after := by
  unfold Expression.roll
  rw [bind_eq_error_iff]
  simp only [bind_pure_eq_error_iff, Expr.roll_eq_error_iff]
  constructor
  · rintro (failed | ⟨_, _, reset, fails⟩)
    · cases failed
    · cases RollM.modify_eq_ok_iff.mp reset
      exact fails
  · intro fails
    exact .inr ⟨(), _, RollM.modify_eq_ok_iff.mpr rfl, fails⟩

/-! ## Failures without the session -/

/-- The computation does not fail over too many dice. -/
def RollError.NoExcess {α : Type} (result : Except RollError α) : Prop :=
  result ≠ .error .limitExceeded

namespace RollError.NoExcess

variable {α β : Type}

theorem ok (value : α) : NoExcess (.ok value) := nofun

theorem bind {first : Except RollError α} {next : α → Except RollError β} (start : NoExcess first)
    (rest : ∀ middle, NoExcess (next middle)) : NoExcess (first >>= next) := by
  cases first with
  | ok middle => exact rest middle
  | error error =>
    intro failed
    cases failed
    exact start rfl

theorem mapM {work : α → Except RollError β} (single : ∀ value, NoExcess (work value))
    (values : List α) : NoExcess (values.mapM work) := by
  induction values with
  | nil => exact ok []
  | cons value values ih =>
    rw [List.mapM_cons]
    exact (single value).bind fun _ => ih.bind fun _ => ok _

theorem foldlM {work : β → α → Except RollError β} (single : ∀ sum value, NoExcess (work sum value))
    (values : List α) (start : β) : NoExcess (values.foldlM work start) := by
  induction values generalizing start with
  | nil => exact ok start
  | cons value values ih =>
    rw [List.foldlM_cons]
    exact (single start value).bind fun sum => ih sum

end RollError.NoExcess

open RollError (NoExcess)

theorem Score.noExcess_narrow (n : Int) : NoExcess (narrow n) := by
  intro failed
  obtain ⟨_, other⟩ := narrow_eq_error_iff.mp failed
  cases other

theorem BinaryOp.noExcess_apply (op : BinaryOp) (a b : Score) : NoExcess (op.apply a b) := by
  cases op with
  | add => exact Score.noExcess_narrow _
  | subtract =>
    change NoExcess ((Score.narrow (a.val - b.val)).map _)
    cases difference : Score.narrow (a.val - b.val) with
    | ok score => exact .ok _
    | error error =>
      intro failed
      cases failed
      exact Score.noExcess_narrow _ difference
  | multiply => exact Score.noExcess_narrow _
  | divide =>
    change NoExcess (a.divide b)
    by_cases zero : b.val = 0
    · rw [show a.divide b = .error .divisionByZero from if_pos zero]
      exact nofun
    · rw [Score.divide_of_ne_zero zero]
      exact Score.noExcess_narrow _

theorem Pool.noExcess_total (pool : Pool) : NoExcess pool.total :=
  .foldlM (fun _ _ => Score.noExcess_narrow _) pool Score.zero

theorem Outcome.noExcess_pool (outcome : Outcome) : NoExcess outcome.pool := by
  induction outcome with
  | literal score => exact nofun
  | dice rolled => exact .ok _
  | group text inner ih => exact ih
  | flagged target flag choices selected total => exact .ok _
  | binary op left right total leftIh => exact leftIh.bind (.mapM (op.noExcess_apply · _))

theorem Outcome.noExcess_poolOperand (outcome : Outcome) : NoExcess outcome.poolOperand := by
  unfold poolOperand
  split
  · exact .ok _
  next =>
    split
    · exact .ok _
    · exact .ok _
    next error _ failed =>
      intro same
      cases same
      exact noExcess_pool _ failed

theorem Operand.noExcess_toPool (operand : Operand) (user : PoolUser) :
    NoExcess (operand.toPool user) := by
  cases operand <;> exact nofun

theorem Operator.noExcess_ofFlag (flag : Flag) (operand : Operand) :
    NoExcess (ofFlag flag operand).evaluate := by
  unfold ofFlag
  cases flag.kind with
  | advantage =>
    refine (operand.noExcess_toPool _).bind fun pool => .bind ?_ fun _ => .ok _
    unfold Pool.advantage
    split <;> exact nofun
  | disadvantage =>
    refine (operand.noExcess_toPool _).bind fun pool => .bind ?_ fun _ => .ok _
    unfold Pool.disadvantage
    split <;> exact nofun
  | keep | drop =>
    exact (operand.noExcess_toPool _).bind fun pool => .bind (.ok _) fun _ => .ok _
  | grow | shrink | reroll => exact (operand.noExcess_toPool _).bind fun _ => nofun

end Tabletop
