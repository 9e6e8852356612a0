import Tabletop.Proofs.Consistency
import Tabletop.Proofs.Limit

/-!
# What a journal tells about a roll

The steps of an evaluation are those of the dice terms, the flags and the arithmetic operators of
its tree, parts before wholes and left before right. A roll that succeeds has recorded all of them,
and one that fails those up to its failure. `Step.Reports` says what the step of a node tells, and
`Session.Traces` that a session has recorded the steps of some nodes. What a node that fails may
have recorded itself is said by `RollError.Interrupts`.
-/

namespace Tabletop

/-! ## Nodes with a step -/

/-- The nodes that are evaluated in a step of their own, in the order of their evaluation. -/
def Expr.stepNodes : Expr → List Expr
  | .int _ => []
  | .dice term => [.dice term]
  | .group _ body => body.stepNodes
  | .flagged target flag => target.stepNodes ++ [.flagged target flag]
  | .binary op left right => left.stepNodes ++ right.stepNodes ++ [.binary op left right]

/-- What those nodes have come to. -/
def Outcome.stepNodes : Outcome → List Outcome
  | .literal _ => []
  | .dice rolled => [.dice rolled]
  | .group _ inner => inner.stepNodes
  | .flagged target flag choices selected total =>
    target.stepNodes ++ [.flagged target flag choices selected total]
  | .binary op left right total =>
    left.stepNodes ++ right.stepNodes ++ [.binary op left right total]

theorem Outcome.map_toExpr_stepNodes (outcome : Outcome) :
    outcome.stepNodes.map toExpr = outcome.toExpr.stepNodes := by
  induction outcome with
  | literal score | dice rolled => rfl
  | group text inner ih => exact ih
  | flagged target flag choices selected total ih =>
    rw [stepNodes, List.map_append, ih]
    rfl
  | binary op left right total leftIh rightIh =>
    rw [stepNodes, List.map_append, List.map_append, leftIh, rightIh]
    rfl

/-! ## Steps -/

namespace Step

/-- All that is recorded for a step. The dice of a term are drawn right before its step. -/
def events : Step → List Event
  | .rolled term => term.results.map (.drawn term.dice.sides.bounds) ++ [.step (.rolled term)]
  | .applied operator result => [.step (.applied operator result)]
  | .selected operator result => [.step (.selected operator result)]

/-- The step evaluates a node of this form. -/
inductive Of : Step → Expr → Prop where
  | rolled (rolled : Rolled) : Of (.rolled rolled) (.dice rolled.dice)
  | selected {target : Expr} {flag : Flag} {operand result : Operand}
      (evaluates : (Operator.ofFlag flag operand).evaluate = .ok result) :
      Of (.selected (.ofFlag flag operand) result) (.flagged target flag)
  | applied {op : BinaryOp} {left right : Expr} {first second result : Operand}
      (evaluates : (Operator.binary op first second).evaluate = .ok result) :
      Of (.applied (.binary op first second) result) (.binary op left right)

/-- The step tells what the node has come to. All dice of a term are rolled; the operator of any
other node evaluates to what the node stores, which is its total for arithmetic and where one result
is chosen, and the chosen results where there can be several. -/
inductive Reports : Step → Outcome → Prop where
  | rolled {rolled : Rolled} (complete : rolled.results.length = rolled.dice.rolls.val) :
      Reports (.rolled rolled) (.dice rolled)
  | single {target : Outcome} {flag : Flag} {operand : Operand} {choices selected : Pool}
      {total : Score} (kind : flag.kind = .advantage ∨ flag.kind = .disadvantage)
      (isOperand : target.poolOperand = .ok operand)
      (evaluates : (Operator.ofFlag flag operand).evaluate = .ok (.number total)) :
      Reports (.selected (.ofFlag flag operand) (.number total))
        (.flagged target flag choices selected total)
  | several {target : Outcome} {flag : Flag} {operand : Operand} {choices selected : Pool}
      {total : Score} (kind : flag.kind = .keep ∨ flag.kind = .drop)
      (isOperand : target.poolOperand = .ok operand)
      (evaluates : (Operator.ofFlag flag operand).evaluate = .ok (.pool selected)) :
      Reports (.selected (.ofFlag flag operand) (.pool selected))
        (.flagged target flag choices selected total)
  | applied {op : BinaryOp} {left right : Outcome} {total : Score}
      (evaluates : (Operator.binary op left.numberOperand right.numberOperand).evaluate =
        .ok (.number total)) :
      Reports (.applied (.binary op left.numberOperand right.numberOperand) (.number total))
        (.binary op left right total)

theorem Reports.of {step : Step} {outcome : Outcome} (reports : step.Reports outcome) :
    step.Of outcome.toExpr := by
  cases reports with
  | rolled => exact .rolled _
  | single _ _ evaluates | several _ _ evaluates => exact .selected evaluates
  | applied evaluates => exact .applied evaluates

end Step

/-- What a node records that fails itself: nothing, the dice of a term whose sum is no score, or the
choice of results whose sum is none. The node is given only where it has recorded something. -/
inductive RollError.Interrupts (error : RollError) : List Expr → List Event → Prop where
  | nothing : Interrupts error [] []
  | dice {term : Dice} {results : Pool} (complete : results.length = term.rolls.val)
      (unsummed : results.total = .error error) :
      Interrupts error [.dice term] (results.map (.drawn term.sides.bounds))
  | choice {target : Outcome} {flag : Flag} {operand : Operand} {selected : Pool}
      (kind : flag.kind = .keep ∨ flag.kind = .drop)
      (isOperand : target.poolOperand = .ok operand)
      (evaluates : (Operator.ofFlag flag operand).evaluate = .ok (.pool selected))
      (unsummed : selected.total = .error error) :
      Interrupts error [.flagged target.toExpr flag]
        [.step (.selected (.ofFlag flag operand) (.pool selected))]

/-- A flag gives one result or several, depending on its kind. -/
theorem Operator.evaluate_ofFlag_cases {flag : Flag} {operand result : Operand}
    (evaluates : (ofFlag flag operand).evaluate = .ok result) :
    ((flag.kind = .advantage ∨ flag.kind = .disadvantage) ∧ ∃ score, result = .number score) ∨
      ((flag.kind = .keep ∨ flag.kind = .drop) ∧ ∃ selected, result = .pool selected) := by
  unfold ofFlag at evaluates
  cases kind : flag.kind with
  | advantage | disadvantage =>
    simp only [kind, evaluate, RollError.bind_eq_ok_iff] at evaluates
    obtain ⟨_, _, score, _, equal⟩ := evaluates
    cases equal
    exact .inl ⟨by simp, score, rfl⟩
  | keep | drop =>
    simp only [kind, evaluate, RollError.bind_eq_ok_iff] at evaluates
    obtain ⟨_, _, _, _, equal⟩ := evaluates
    cases equal
    exact .inr ⟨by simp, _, rfl⟩
  | grow | shrink | reroll =>
    simp only [kind, evaluate, RollError.bind_eq_ok_iff] at evaluates
    obtain ⟨_, _, refused⟩ := evaluates
    cases refused

/-! ## Journals that grow -/

variable {σ : Type} [Source σ]

namespace Session

/-- Between two states of a session, exactly these events were recorded, and the faces among them
are what the source gave when it was asked for faces within their bounds, one after another. -/
structure Adds (session : Session σ) (events : List Event) (after : Session σ) : Prop where
  journal_eq : after.journal.toList = session.journal.toList ++ events
  given : Source.nextMany (Journal.bounds events.toArray) session.source =
    (Journal.faces events.toArray, after.source)

namespace Adds

variable {session between after : Session σ} {events more : List Event}

theorem refl (session : Session σ) : session.Adds [] session :=
  ⟨(List.append_nil _).symm, rfl⟩

theorem trans (first : session.Adds events between) (second : between.Adds more after) :
    session.Adds (events ++ more) after where
  journal_eq := by rw [second.journal_eq, first.journal_eq, List.append_assoc]
  given := by
    have bounds : Journal.bounds (events ++ more).toArray =
        Journal.bounds events.toArray ++ Journal.bounds more.toArray := List.filterMap_append
    have faces : Journal.faces (events ++ more).toArray =
        Journal.faces events.toArray ++ Journal.faces more.toArray := List.filterMap_append
    rw [bounds, faces, Source.nextMany_append, first.given, second.given]

/-- Setting the count of dice adds nothing. -/
theorem of_counted {n : Nat} (adds : { session with counted := n }.Adds events after) :
    session.Adds events after :=
  ⟨adds.journal_eq, adds.given⟩

theorem count (adds : session.Adds events after) (n : Nat) : session.Adds events (after.count n) :=
  ⟨adds.journal_eq, adds.given⟩

theorem record (session : Session σ) (step : Step) :
    session.Adds [.step step] (session.record (.step step)) :=
  ⟨Array.toList_push, rfl⟩

theorem draw (session : Session σ) (bounds : Bounds) :
    session.Adds [.drawn bounds (session.draw bounds).1] (session.draw bounds).2 :=
  ⟨Array.toList_push, rfl⟩

theorem drawMany {bounds : Bounds} {n : Nat} {faces : Pool}
    (drawn : session.drawMany bounds n = (faces, after)) :
    session.Adds (faces.map (.drawn bounds)) after := by
  induction n generalizing session faces with
  | zero =>
    cases drawn
    exact refl _
  | succ n ih =>
    rw [drawMany_succ] at drawn
    cases drawn
    exact (draw session bounds).trans (ih rfl)

theorem steps_eq (adds : session.Adds events after) :
    after.journal.steps = session.journal.steps ++ Journal.steps events.toArray := by
  unfold Journal.steps
  rw [adds.journal_eq, List.filterMap_append]

end Adds

/-- Between two states of a session, the steps of these nodes were recorded, and then some events
more. -/
def Traces (session : Session σ) (done : List Outcome) (more : List Event) (after : Session σ) :
    Prop :=
  ∃ steps, List.Forall₂ Step.Reports steps done ∧
    session.Adds (steps.flatMap Step.events ++ more) after

namespace Traces

variable {session between after : Session σ} {done others : List Outcome} {more : List Event}

theorem of_adds (adds : session.Adds more after) : session.Traces [] more after :=
  ⟨[], .nil, adds⟩

theorem trans (first : session.Traces done [] between) (second : between.Traces others more after) :
    session.Traces (done ++ others) more after := by
  obtain ⟨steps, reports, adds⟩ := first
  obtain ⟨next, nextReports, nextAdds⟩ := second
  refine ⟨steps ++ next, List.rel_append reports nextReports, ?_⟩
  rw [List.append_nil] at adds
  rw [List.flatMap_append, List.append_assoc]
  exact adds.trans nextAdds

theorem of_counted {n : Nat} (traces : { session with counted := n }.Traces done more after) :
    session.Traces done more after := by
  obtain ⟨steps, reports, adds⟩ := traces
  exact ⟨steps, reports, adds.of_counted⟩

/-- The step of a node is recorded behind what its parts have recorded. -/
theorem step {step : Step} {outcome : Outcome} (reports : step.Reports outcome)
    (adds : session.Adds step.events after) : session.Traces [outcome] [] after := by
  refine ⟨[step], .cons reports .nil, ?_⟩
  rw [List.flatMap_singleton, List.append_nil]
  exact adds

end Traces

end Session

/-! ## Steps of a roll -/

theorem Dice.Rolls.traces {term : Dice} {session after : Session σ} {rolled : Rolled}
    (rolls : term.Rolls session rolled after) : session.Traces [.dice rolled] [] after := by
  obtain ⟨_, complete, _⟩ := rolls.consistent
  cases rolls with
  | intro within draws sum =>
    exact .step (.rolled complete) ((Session.Adds.drawMany draws).of_counted.trans (.record _ _))

namespace Expr

/-- A tree that is rolled records the steps of all its nodes. -/
theorem Rolls.traces {tree : Expr} {session after : Session σ} {outcome : Outcome}
    (rolls : tree.Rolls session outcome after) : session.Traces outcome.stepNodes [] after := by
  induction rolls with
  | int score session => exact .of_adds (.refl session)
  | dice rolls => exact rolls.traces
  | group rolls ih => exact ih
  | @flagged target flag inner _ after operand result _ _ _ rolls isOperand evaluates isPool selects
      ih =>
    refine ih.trans ?_
    have recorded := Session.Adds.record after (.selected (.ofFlag flag operand) result)
    rcases Operator.evaluate_ofFlag_cases evaluates with ⟨kind, _, rfl⟩ | ⟨kind, _, rfl⟩
    · obtain ⟨_, rfl⟩ := selects.of_number
      exact .step (.single kind isOperand evaluates) recorded
    · obtain rfl := selects.of_pool
      exact .step (.several kind isOperand evaluates) recorded
  | binary leftRolls rightRolls applies leftIh rightIh =>
    have evaluates := Operator.evaluate_binary_eq_ok_iff.mpr ⟨_, applies, rfl⟩
    exact (leftIh.trans rightIh).trans (.step (.applied evaluates) (.record _ _))

theorem Rolls.map_toExpr_stepNodes {tree : Expr} {session after : Session σ} {outcome : Outcome}
    (rolls : tree.Rolls session outcome after) :
    outcome.stepNodes.map Outcome.toExpr = tree.stepNodes := by
  rw [outcome.map_toExpr_stepNodes, rolls.consistent.1]

/-- A tree that fails records the steps of its first nodes, and then what interrupts it. -/
theorem Fails.traces {tree : Expr} {session after : Session σ} {error : RollError}
    (fails : tree.Fails session error after) :
    ∃ done next events, done.map Outcome.toExpr ++ next <+: tree.stepNodes ∧
      error.Interrupts next events ∧ session.Traces done events after := by
  induction fails with
  | limit excess =>
    exact ⟨[], [], [], List.nil_prefix, .nothing, .of_adds ((Session.Adds.refl _).count _)⟩
  | @sum term session _ results _ within draws unsummed =>
    have complete := (session.count term.rolls.val).length_drawMany term.sides.bounds term.rolls.val
    rw [draws] at complete
    exact ⟨[], [.dice term], _, List.prefix_rfl, .dice complete unsummed,
      .of_adds (Session.Adds.drawMany draws).of_counted⟩
  | group fails ih => exact ih
  | target fails ih =>
    obtain ⟨done, next, events, first, interrupts, traces⟩ := ih
    exact ⟨done, next, events, first.trans (List.prefix_append _ _), interrupts, traces⟩
  | operand rolls noOperand | choice rolls isOperand refuses =>
    refine ⟨_, [], [], ?_, .nothing, rolls.traces⟩
    rw [List.append_nil, rolls.map_toExpr_stepNodes]
    exact List.prefix_append _ _
  | @selection target flag inner _ after operand result selected _ rolls isOperand evaluates isPool
      unsummed =>
    rcases Operator.evaluate_ofFlag_cases evaluates with ⟨_, _, rfl⟩ | ⟨kind, _, rfl⟩
    · cases isPool
    · cases isPool
      refine ⟨_, _, _, ?_, .choice kind isOperand evaluates unsummed,
        rolls.traces.trans (.of_adds (.record _ _))⟩
      rw [List.append_nil, rolls.map_toExpr_stepNodes, rolls.consistent.1]
      exact List.prefix_rfl
  | left fails ih =>
    obtain ⟨done, next, events, first, interrupts, traces⟩ := ih
    refine ⟨done, next, events, first.trans ?_, interrupts, traces⟩
    rw [stepNodes, List.append_assoc]
    exact List.prefix_append _ _
  | right rolls fails ih =>
    obtain ⟨done, next, events, first, interrupts, traces⟩ := ih
    refine ⟨_, next, events, ?_, interrupts, rolls.traces.trans traces⟩
    rw [List.map_append, rolls.map_toExpr_stepNodes, List.append_assoc, stepNodes,
      List.append_assoc]
    exact (List.prefix_append_right_inj _).mpr (first.trans (List.prefix_append _ _))
  | operator leftRolls rightRolls refuses =>
    refine ⟨_, [], [], ?_, .nothing, leftRolls.traces.trans rightRolls.traces⟩
    rw [List.append_nil, List.map_append, leftRolls.map_toExpr_stepNodes,
      rightRolls.map_toExpr_stepNodes]
    exact List.prefix_append _ _

end Expr

/-! ## Evaluations -/

theorem Step.steps_events (step : Step) : Journal.steps step.events.toArray = [step] := by
  cases step with
  | rolled term => simp [Journal.steps, events, List.filterMap_map]
  | applied operator result | selected operator result => rfl

/-- The steps among all that is recorded for some steps are these. -/
theorem Journal.steps_flatMap_events (done : List Step) (more : List Event) :
    steps (done.flatMap Step.events ++ more).toArray = done ++ steps more.toArray := by
  induction done with
  | nil => rfl
  | cons step done ih =>
    have first := step.steps_events
    unfold steps at first ih ⊢
    rw [List.flatMap_cons, List.append_assoc, List.filterMap_append, first, ih]
    rfl

/-- What a node that fails has recorded is at most the step of that node. -/
theorem RollError.Interrupts.exists_of {error : RollError} {next : List Expr} {events : List Event}
    (interrupts : error.Interrupts next events) :
    ∃ nodes, nodes <+: next ∧ List.Forall₂ Step.Of (Journal.steps events.toArray) nodes := by
  cases interrupts with
  | nothing => exact ⟨[], List.prefix_rfl, .nil⟩
  | dice complete unsummed =>
    refine ⟨[], List.nil_prefix, ?_⟩
    simp [Journal.steps, List.filterMap_map]
  | choice kind isOperand evaluates unsummed =>
    exact ⟨_, List.prefix_rfl, .cons (.selected evaluates) .nil⟩

/-- The steps that a journal has gained are those of the nodes, and those among the other events. -/
theorem Session.Traces.exists_steps {session after : Session σ} {done : List Outcome}
    {events : List Event} {nodes : List Expr} (traces : session.Traces done events after)
    (rest : List.Forall₂ Step.Of (Journal.steps events.toArray) nodes) :
    ∃ steps, after.journal.steps = session.journal.steps ++ steps ∧
      List.Forall₂ Step.Of steps (done.map Outcome.toExpr ++ nodes) := by
  obtain ⟨steps, reports, adds⟩ := traces
  refine ⟨_, adds.steps_eq, ?_⟩
  rw [Journal.steps_flatMap_events]
  refine List.rel_append (List.forall₂_map_right_iff.mpr ?_) rest
  exact reports.imp fun _ _ => Step.Reports.of

/-- An evaluation, from any source and under any limit, reports its nodes one after another, parts
before wholes and left before right. If it succeeds, it has reported all of them, each with what the
outcome stores, and the dice of a term have been drawn right before the term is reported. If it
fails, it has reported nodes from the first one on, and recorded nothing else but what the node at
which it failed may have drawn or chosen. In either case each step evaluates to its result. -/
theorem Expression.roll_traces (expression : Expression) (session : Session σ) :
    (∀ roll after, expression.roll session = .ok roll after →
      roll.outcome.stepNodes.map Outcome.toExpr = expression.root.stepNodes ∧
        session.Traces roll.outcome.stepNodes [] after) ∧
    (∀ error after, expression.roll session = .error error after →
      ∃ done next events, done.map Outcome.toExpr ++ next <+: expression.root.stepNodes ∧
        error.Interrupts next events ∧ session.Traces done events after) ∧
    ∀ after, expression.roll.Leaves session after →
      ∃ steps nodes, after.journal.steps = session.journal.steps ++ steps ∧
        List.Forall₂ Step.Of steps nodes ∧ nodes <+: expression.root.stepNodes := by
  have succeeds : ∀ roll after, expression.roll session = .ok roll after →
      roll.outcome.stepNodes.map Outcome.toExpr = expression.root.stepNodes ∧
        session.Traces roll.outcome.stepNodes [] after := by
    intro roll after done
    have rolls := (Expression.roll_eq_ok_iff.mp done).2
    exact ⟨rolls.map_toExpr_stepNodes, rolls.traces.of_counted⟩
  have fails : ∀ error after, expression.roll session = .error error after →
      ∃ done next events, done.map Outcome.toExpr ++ next <+: expression.root.stepNodes ∧
        error.Interrupts next events ∧ session.Traces done events after := by
    intro error after failed
    obtain ⟨done, next, events, first, interrupts, traces⟩ :=
      (Expression.roll_eq_error_iff.mp failed).traces
    exact ⟨done, next, events, first, interrupts, traces.of_counted⟩
  refine ⟨succeeds, fails, ?_⟩
  rintro after (⟨roll, done⟩ | ⟨error, failed⟩)
  · obtain ⟨whole, traces⟩ := succeeds roll after done
    obtain ⟨steps, gained, each⟩ := traces.exists_steps .nil
    rw [List.append_nil, whole] at each
    exact ⟨steps, _, gained, each, List.prefix_rfl⟩
  · obtain ⟨done, next, events, first, interrupts, traces⟩ := fails error after failed
    obtain ⟨nodes, among, last⟩ := interrupts.exists_of
    obtain ⟨steps, gained, each⟩ := traces.exists_steps last
    exact ⟨steps, _, gained, each, ((List.prefix_append_right_inj _).mpr among).trans first⟩

/-- Two dice are rolled before the better one is chosen, and then five is added. -/
theorem Expression.roll_traces_advantage :
    let twenty : Tally := ⟨20, by decide, by decide⟩
    let five : Score := ⟨5, by decide⟩
    let eight : Score := ⟨8, by decide⟩
    let fifteen : Score := ⟨15, by decide⟩
    let pair : Dice := ⟨⟨2, by decide, by decide⟩, .numbered twenty⟩
    let rolled : Rolled := ⟨pair, [eight, fifteen], ⟨23, by decide⟩⟩
    let expression : Expression := ⟨"2d20!adv + 5",
      .binary .add (.flagged (.dice pair) ⟨.adv, none⟩) (.int five)⟩
    let session := Session.start none (Loaded.sequence ([eight, fifteen].getD · five) 0)
    parse "2d20!adv + 5" = .ok expression ∧
      ∃ roll after, expression.roll session = .ok roll after ∧
        after.journal.steps = [.rolled rolled,
          .selected (.advantage (.dice rolled)) (.number fifteen),
          .applied (.binary .add (.number fifteen) (.number five)) (.number ⟨20, by decide⟩)] ∧
        roll.outcome.stepNodes.map Outcome.toExpr = expression.root.stepNodes ∧
        session.Traces roll.outcome.stepNodes [] after := by
  intro twenty five eight fifteen pair rolled expression session
  have parsed : parse "2d20!adv + 5" = .ok expression := by decide +kernel
  cases done : expression.roll session with
  | ok roll after =>
    refine ⟨parsed, roll, after, rfl, ?_, (roll_traces expression session).1 roll after done⟩
    cases done
    rfl
  | error error after => cases done

end Tabletop
