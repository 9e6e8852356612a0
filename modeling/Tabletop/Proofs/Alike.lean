import Tabletop.Proofs.Failures

/-!
# Sessions that an evaluation cannot tell apart

An evaluation counts dice against the limit, draws faces and records steps. A relation between
sessions that is kept by each of these is kept by every evaluation: the same tree comes to the same
outcome in both sessions, or fails over the same error. One such relation leaves the journals out.
A session writes its journal and never reads it, so that only the source, the limit and the count of
dice matter.
-/

namespace Tabletop

/-- Sessions in this relation answer alike whatever an evaluation asks them, and stay in it. -/
structure Session.Bisimulation {σ : Type} [Source σ] (related : Session σ → Session σ → Prop) :
    Prop where
  exceeded_eq {session other : Session σ} (same : related session other) :
    other.exceeded = session.exceeded
  count {session other : Session σ} (same : related session other) (n : Nat) :
    related (session.count n) (other.count n)
  drawMany {session other after : Session σ} {bounds : Bounds} {n : Nat} {faces : Pool}
    (same : related session other) (drawn : session.drawMany bounds n = (faces, after)) :
    ∃ otherAfter, other.drawMany bounds n = (faces, otherAfter) ∧ related after otherAfter
  record {session other : Session σ} (same : related session other) (step : Step) :
    related (session.record (.step step)) (other.record (.step step))

/-! ## Evaluations in related sessions -/

section

variable {σ : Type} [Source σ] {related : Session σ → Session σ → Prop}
  {session other after : Session σ}

theorem Dice.Rolls.bisimilar {term : Dice} {rolled : Rolled}
    (rolls : term.Rolls session rolled after) (kept : Session.Bisimulation related)
    (same : related session other) :
    ∃ otherAfter, term.Rolls other rolled otherAfter ∧ related after otherAfter := by
  cases rolls with
  | intro within draws sum =>
    have counted := kept.count same term.rolls.val
    obtain ⟨drawn, otherDraws, next⟩ := kept.drawMany counted draws
    exact ⟨_, .intro ((kept.exceeded_eq counted).trans within) otherDraws sum, kept.record next _⟩

namespace Expr

theorem Rolls.bisimilar {tree : Expr} {outcome : Outcome} (rolls : tree.Rolls session outcome after)
    (kept : Session.Bisimulation related) (same : related session other) :
    ∃ otherAfter, tree.Rolls other outcome otherAfter ∧ related after otherAfter := by
  induction rolls generalizing other with
  | int score session => exact ⟨other, .int score other, same⟩
  | dice rolls =>
    obtain ⟨otherAfter, otherRolls, next⟩ := rolls.bisimilar kept same
    exact ⟨otherAfter, .dice otherRolls, next⟩
  | group rolls ih =>
    obtain ⟨otherAfter, otherRolls, next⟩ := ih same
    exact ⟨otherAfter, .group otherRolls, next⟩
  | flagged rolls isOperand evaluates isPool selects ih =>
    obtain ⟨_, otherRolls, next⟩ := ih same
    exact ⟨_, .flagged otherRolls isOperand evaluates isPool selects, kept.record next _⟩
  | binary leftRolls rightRolls applies leftIh rightIh =>
    obtain ⟨_, otherLeft, between⟩ := leftIh same
    obtain ⟨_, otherRight, next⟩ := rightIh between
    exact ⟨_, .binary otherLeft otherRight applies, kept.record next _⟩

theorem Fails.bisimilar {tree : Expr} {error : RollError} (fails : tree.Fails session error after)
    (kept : Session.Bisimulation related) (same : related session other) :
    ∃ otherAfter, tree.Fails other error otherAfter ∧ related after otherAfter := by
  induction fails generalizing other with
  | @limit term _ excess =>
    have counted := kept.count same term.rolls.val
    exact ⟨_, .limit ((kept.exceeded_eq counted).trans excess), counted⟩
  | @sum term _ _ _ _ within draws unsummed =>
    have counted := kept.count same term.rolls.val
    obtain ⟨drawn, otherDraws, next⟩ := kept.drawMany counted draws
    exact ⟨drawn, .sum ((kept.exceeded_eq counted).trans within) otherDraws unsummed, next⟩
  | group fails ih =>
    obtain ⟨otherAfter, otherFails, next⟩ := ih same
    exact ⟨otherAfter, .group otherFails, next⟩
  | target fails ih =>
    obtain ⟨otherAfter, otherFails, next⟩ := ih same
    exact ⟨otherAfter, .target otherFails, next⟩
  | operand rolls noOperand =>
    obtain ⟨otherAfter, otherRolls, next⟩ := rolls.bisimilar kept same
    exact ⟨otherAfter, .operand otherRolls noOperand, next⟩
  | choice rolls isOperand refuses =>
    obtain ⟨otherAfter, otherRolls, next⟩ := rolls.bisimilar kept same
    exact ⟨otherAfter, .choice otherRolls isOperand refuses, next⟩
  | selection rolls isOperand evaluates isPool unsummed =>
    obtain ⟨_, otherRolls, next⟩ := rolls.bisimilar kept same
    exact ⟨_, .selection otherRolls isOperand evaluates isPool unsummed, kept.record next _⟩
  | left fails ih =>
    obtain ⟨otherAfter, otherFails, next⟩ := ih same
    exact ⟨otherAfter, .left otherFails, next⟩
  | right rolls fails ih =>
    obtain ⟨_, otherRolls, between⟩ := rolls.bisimilar kept same
    obtain ⟨otherAfter, otherFails, next⟩ := ih between
    exact ⟨otherAfter, .right otherRolls otherFails, next⟩
  | operator leftRolls rightRolls refuses =>
    obtain ⟨_, otherLeft, between⟩ := leftRolls.bisimilar kept same
    obtain ⟨otherAfter, otherRight, next⟩ := rightRolls.bisimilar kept between
    exact ⟨otherAfter, .operator otherLeft otherRight refuses, next⟩

end Expr

end

/-! ## Sessions with other journals -/

/-- The sessions differ at most in what their journals have recorded. -/
structure Session.Alike {σ : Type} (session other : Session σ) : Prop where
  source_eq : other.source = session.source
  limit_eq : other.limit = session.limit
  counted_eq : other.counted = session.counted

namespace Session.Alike

variable {σ : Type} {session other : Session σ}

theorem of_record (session : Session σ) (event : Event) : session.Alike (session.record event) :=
  ⟨rfl, rfl, rfl⟩

theorem record (alike : session.Alike other) (event otherEvent : Event) :
    (session.record event).Alike (other.record otherEvent) :=
  ⟨alike.source_eq, alike.limit_eq, alike.counted_eq⟩

theorem count (alike : session.Alike other) (n : Nat) : (session.count n).Alike (other.count n) :=
  ⟨alike.source_eq, alike.limit_eq, by simp only [Session.count, alike.counted_eq]⟩

theorem exceeded_eq (alike : session.Alike other) : other.exceeded = session.exceeded := by
  unfold exceeded
  rw [alike.limit_eq, alike.counted_eq]

variable [Source σ]

theorem draw (alike : session.Alike other) (bounds : Bounds) :
    (other.draw bounds).1 = (session.draw bounds).1 ∧
      (session.draw bounds).2.Alike (other.draw bounds).2 := by
  have given : Source.next bounds other.source = Source.next bounds session.source :=
    congrArg _ alike.source_eq
  refine ⟨?_, ?_, alike.limit_eq, alike.counted_eq⟩
  · exact congrArg (·.1) given
  · exact congrArg (·.2) given

/-- The same faces are drawn. -/
theorem drawMany (alike : session.Alike other) {bounds : Bounds} {n : Nat} {faces : Pool}
    {after : Session σ} (drawn : session.drawMany bounds n = (faces, after)) :
    ∃ otherAfter, other.drawMany bounds n = (faces, otherAfter) ∧ after.Alike otherAfter := by
  induction n generalizing session other faces with
  | zero =>
    cases drawn
    exact ⟨other, rfl, alike⟩
  | succ n ih =>
    obtain ⟨face, next⟩ := alike.draw bounds
    rw [drawMany_succ] at drawn
    cases drawn
    obtain ⟨otherAfter, same, last⟩ := ih next rfl
    refine ⟨otherAfter, ?_, last⟩
    rw [drawMany_succ, face, same]
    rfl

theorem bisimulation : Bisimulation (Alike : Session σ → Session σ → Prop) where
  exceeded_eq same := same.exceeded_eq
  count same n := same.count n
  drawMany same drawn := same.drawMany drawn
  record same _ := same.record _ _

end Session.Alike

namespace Expr

variable {σ : Type} [Source σ] {tree : Expr} {session other after : Session σ}

/-- What a tree comes to does not depend on the journal. -/
theorem Rolls.alike {outcome : Outcome} (rolls : tree.Rolls session outcome after)
    (same : session.Alike other) :
    ∃ otherAfter, tree.Rolls other outcome otherAfter ∧ after.Alike otherAfter :=
  rolls.bisimilar Session.Alike.bisimulation same

/-- How a tree fails does not depend on the journal. -/
theorem Fails.alike {error : RollError} (fails : tree.Fails session error after)
    (same : session.Alike other) :
    ∃ otherAfter, tree.Fails other error otherAfter ∧ after.Alike otherAfter :=
  fails.bisimilar Session.Alike.bisimulation same

end Expr

end Tabletop
