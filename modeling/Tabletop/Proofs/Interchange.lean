import Tabletop.Proofs.Alike
import Tabletop.Proofs.Draws
import Tabletop.Proofs.Grammar

/-!
# Trees that can stand for each other

Two trees are interchangeable if they come to the same total and the same results, or fail over the
same error, and draw the same faces on the way. What they record besides may differ: an operator
names the dice that are its operand, but of a group it only tells the total. A tree is
interchangeable with the group around it, and trees stay interchangeable when more is computed from
them.
-/

namespace Tabletop

/-! ## Sessions with the same draws -/

/-- The sessions differ at most in the steps that their journals have recorded. -/
structure Session.SameDraws {σ : Type} (session other : Session σ) : Prop
    extends session.Alike other where
  bounds_eq : other.journal.bounds = session.journal.bounds
  faces_eq : other.journal.faces = session.journal.faces

namespace Session.SameDraws

variable {σ : Type} {session other after otherAfter : Session σ}

theorem refl (session : Session σ) : session.SameDraws session :=
  ⟨⟨rfl, rfl, rfl⟩, rfl, rfl⟩

theorem count (same : session.SameDraws other) (n : Nat) :
    (session.count n).SameDraws (other.count n) :=
  ⟨same.toAlike.count n, same.bounds_eq, same.faces_eq⟩

variable [Source σ]

/-- The sessions go on to draw the same faces. -/
theorem draws {requests : List Bounds} {faces : Pool} (same : session.SameDraws other)
    (draws : session.Draws requests faces after)
    (otherDraws : other.Draws requests faces otherAfter) (alike : after.Alike otherAfter) :
    after.SameDraws otherAfter where
  toAlike := alike
  bounds_eq := by rw [otherDraws.bounds_eq, same.bounds_eq, draws.bounds_eq]
  faces_eq := by rw [otherDraws.faces_eq, same.faces_eq, draws.faces_eq]

/-- The steps that are recorded may differ. -/
theorem record (same : session.SameDraws other) (step otherStep : Step) :
    (session.record (.step step)).SameDraws (other.record (.step otherStep)) :=
  same.draws ((Draws.refl session).record step) ((Draws.refl other).record otherStep)
    (same.toAlike.record _ _)

theorem bisimulation : Bisimulation (SameDraws : Session σ → Session σ → Prop) where
  exceeded_eq same := same.toAlike.exceeded_eq
  count same n := same.count n
  drawMany same drawn := by
    obtain ⟨otherAfter, otherDrawn, alike⟩ := same.toAlike.drawMany drawn
    exact ⟨otherAfter, otherDrawn,
      same.draws (draws_drawMany drawn) (draws_drawMany otherDrawn) alike⟩
  record same step := same.record step step

end Session.SameDraws

namespace Expr

variable {σ : Type} [Source σ] {session other after : Session σ}

/-! ## The same tree in both sessions -/

theorem Rolls.sameDraws {tree : Expr} {outcome : Outcome} (rolls : tree.Rolls session outcome after)
    (same : session.SameDraws other) :
    ∃ otherAfter, tree.Rolls other outcome otherAfter ∧ after.SameDraws otherAfter :=
  rolls.bisimilar Session.SameDraws.bisimulation same

/-- How a tree fails does not depend on the steps that are recorded before. -/
theorem Fails.sameDraws {tree : Expr} {error : RollError} (fails : tree.Fails session error after)
    (same : session.SameDraws other) :
    ∃ otherAfter, tree.Fails other error otherAfter ∧ after.SameDraws otherAfter :=
  fails.bisimilar Session.SameDraws.bisimulation same

/-! ## Trees that are interchangeable -/

/-- The second tree comes to the total and the results of the first one, or fails over its error,
with the same draws. -/
structure Interchangeable (σ : Type) [Source σ] (tree other : Expr) : Prop where
  rolls {session start after : Session σ} {outcome : Outcome} (same : session.SameDraws start)
      (rolls : tree.Rolls session outcome after) :
      ∃ otherOutcome otherAfter, other.Rolls start otherOutcome otherAfter ∧
        otherOutcome.total = outcome.total ∧ otherOutcome.pool = outcome.pool ∧
        after.SameDraws otherAfter
  fails {session start after : Session σ} {error : RollError} (same : session.SameDraws start)
      (fails : tree.Fails session error after) :
      ∃ otherAfter, other.Fails start error otherAfter ∧ after.SameDraws otherAfter

namespace Interchangeable

variable {tree replacement : Expr}

/-- Parentheses around a tree change nothing. -/
theorem group (text : String) (tree : Expr) : Interchangeable σ tree (.group text tree) where
  rolls same rolls := by
    obtain ⟨otherAfter, otherRolls, next⟩ := rolls.sameDraws same
    exact ⟨.group text _, otherAfter, .group otherRolls, rfl, rfl, next⟩
  fails same fails := by
    obtain ⟨otherAfter, otherFails, next⟩ := fails.sameDraws same
    exact ⟨otherAfter, .group otherFails, next⟩

/-- The left side of an operator may be replaced. The operator takes its total only, and the results
of the whole are computed from its results. -/
theorem binary (interchangeable : Interchangeable σ tree replacement) (op : BinaryOp)
    (right : Expr) :
    Interchangeable σ (.binary op tree right) (.binary op replacement right) where
  rolls same rolls := by
    cases rolls with
    | binary leftRolls rightRolls applies =>
      obtain ⟨first, _, otherLeft, total, pool, between⟩ := interchangeable.rolls same leftRolls
      obtain ⟨_, otherRight, next⟩ := rightRolls.sameDraws between
      rw [← total] at applies
      refine ⟨_, _, .binary otherLeft otherRight applies, rfl, ?_, next.record _ _⟩
      simp only [Outcome.pool, pool]
  fails same fails := by
    cases fails with
    | left fails =>
      obtain ⟨otherAfter, otherFails, next⟩ := interchangeable.fails same fails
      exact ⟨otherAfter, .left otherFails, next⟩
    | right leftRolls fails =>
      obtain ⟨_, _, otherLeft, _, _, between⟩ := interchangeable.rolls same leftRolls
      obtain ⟨otherAfter, otherFails, next⟩ := fails.sameDraws between
      exact ⟨otherAfter, .right otherLeft otherFails, next⟩
    | operator leftRolls rightRolls refuses =>
      obtain ⟨_, _, otherLeft, total, _, between⟩ := interchangeable.rolls same leftRolls
      obtain ⟨otherAfter, otherRight, next⟩ := rightRolls.sameDraws between
      rw [← total] at refuses
      exact ⟨otherAfter, .operator otherLeft otherRight refuses, next⟩

/-- What begins a sequence may be replaced. -/
theorem foldl_attach (interchangeable : Interchangeable σ tree replacement) (links : List Link) :
    Interchangeable σ (links.foldl Link.attach tree) (links.foldl Link.attach replacement) := by
  induction links generalizing tree replacement with
  | nil => exact interchangeable
  | cons link links ih => exact ih (interchangeable.binary link.op link.operand)

end Interchangeable

end Expr

/-- Expressions whose trees are interchangeable come to the same total and the same results, or fail
over the same error, and the same faces are drawn. -/
theorem Expression.roll_of_interchangeable {σ : Type} [Source σ] {expression other : Expression}
    (interchangeable : Expr.Interchangeable σ expression.root other.root) (session : Session σ) :
    (∀ roll after, expression.roll session = .ok roll after →
      ∃ otherRoll otherAfter, other.roll session = .ok otherRoll otherAfter ∧
        otherRoll.total = roll.total ∧ otherRoll.pool = roll.pool ∧ after.SameDraws otherAfter) ∧
    ∀ error after, expression.roll session = .error error after →
      ∃ otherAfter, other.roll session = .error error otherAfter ∧ after.SameDraws otherAfter := by
  have start := Session.SameDraws.refl { session with counted := 0 }
  constructor
  · intro roll after done
    obtain ⟨_, rolls⟩ := roll_eq_ok_iff.mp done
    obtain ⟨outcome, otherAfter, otherRolls, total, pool, same⟩ := interchangeable.rolls start rolls
    exact ⟨⟨other.text, outcome⟩, otherAfter, roll_eq_ok_iff.mpr ⟨rfl, otherRolls⟩, total, pool,
      same⟩
  · intro error after failed
    obtain ⟨otherAfter, otherFails, same⟩ :=
      interchangeable.fails start (roll_eq_error_iff.mp failed)
    exact ⟨otherAfter, roll_eq_error_iff.mpr otherFails, same⟩

end Tabletop
