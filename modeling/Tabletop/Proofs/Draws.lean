import Tabletop.Proofs.Rolls
import Tabletop.Proofs.Terms

/-!
# What a roll draws

A dice term asks the source for one face after another. `Session.Draws` says which faces a source
was asked for between two states of a session and which it gave. A tree that is rolled asks for the
faces of its dice terms in the order they are read, and its outcome keeps what it got in that order.
-/

namespace Tabletop

/-! ## Several faces from a source -/

/-- Asks a source for several faces, one after another. -/
def Source.nextMany {σ : Type} [Source σ] : List Bounds → σ → Pool × σ
  | [], source => ([], source)
  | bounds :: rest, source =>
    let (face, source) := next bounds source
    let (faces, source) := nextMany rest source
    (face :: faces, source)

/-- The faces that a journal records. -/
def Journal.faces (journal : Journal) : Pool :=
  journal.toList.filterMap fun
    | .drawn _ face => some face
    | .step _ => none

variable {σ : Type} [Source σ]

theorem Source.nextMany_append (first second : List Bounds) (source : σ) :
    nextMany (first ++ second) source =
      ((nextMany first source).1 ++ (nextMany second (nextMany first source).2).1,
        (nextMany second (nextMany first source).2).2) := by
  induction first generalizing source with
  | nil => rfl
  | cons bounds first ih => simp only [List.cons_append, nextMany, ih]

theorem Source.length_nextMany (requests : List Bounds) (source : σ) :
    (nextMany requests source).1.length = requests.length := by
  induction requests generalizing source with
  | nil => rfl
  | cons bounds requests ih => simp only [nextMany, List.length_cons, ih]

namespace Journal

theorem bounds_push (journal : Journal) (event : Event) :
    bounds (journal.push event) = journal.bounds ++ bounds #[event] := by
  simp [bounds, List.filterMap_append]

theorem faces_push (journal : Journal) (event : Event) :
    faces (journal.push event) = journal.faces ++ faces #[event] := by
  simp [faces, List.filterMap_append]

end Journal

/-- Between two states of a session, exactly these faces were asked for, in this order, and these
were given. -/
structure Session.Draws (session : Session σ) (requests : List Bounds) (faces : Pool)
    (after : Session σ) : Prop where
  limit_eq : after.limit = session.limit
  given : Source.nextMany requests session.source = (faces, after.source)
  bounds_eq : after.journal.bounds = session.journal.bounds ++ requests
  faces_eq : after.journal.faces = session.journal.faces ++ faces

namespace Session

namespace Draws

variable {session between after : Session σ} {requests others : List Bounds} {faces more : Pool}

theorem refl (session : Session σ) : session.Draws [] [] session :=
  ⟨rfl, rfl, (List.append_nil _).symm, (List.append_nil _).symm⟩

theorem trans (first : session.Draws requests faces between)
    (second : between.Draws others more after) :
    session.Draws (requests ++ others) (faces ++ more) after where
  limit_eq := second.limit_eq.trans first.limit_eq
  given := by rw [Source.nextMany_append, first.given, second.given]
  bounds_eq := by rw [second.bounds_eq, first.bounds_eq, List.append_assoc]
  faces_eq := by rw [second.faces_eq, first.faces_eq, List.append_assoc]

/-- What is given depends on nothing but what is asked for. -/
theorem eq_of_requests {otherAfter : Session σ} (draws : session.Draws requests faces after)
    (other : session.Draws requests more otherAfter) : faces = more :=
  congrArg Prod.fst (draws.given.symm.trans other.given)

/-- The journals say what was given. -/
theorem faces_unique (draws : session.Draws requests faces after)
    (other : session.Draws others more after) : faces = more :=
  List.append_cancel_left (draws.faces_eq.symm.trans other.faces_eq)

/-- The journals say what was asked for. -/
theorem requests_unique {otherFaces : Pool} (draws : session.Draws requests faces after)
    (other : session.Draws others otherFaces after) : requests = others :=
  List.append_cancel_left (draws.bounds_eq.symm.trans other.bounds_eq)

/-- Each request is answered by one face. -/
theorem length_eq (draws : session.Draws requests faces after) :
    faces.length = requests.length := by
  rw [← Source.length_nextMany requests session.source, draws.given]

/-- Setting the count of dice draws none. -/
theorem of_counted {n : Nat} (draws : { session with counted := n }.Draws requests faces after) :
    session.Draws requests faces after :=
  ⟨draws.limit_eq, draws.given, draws.bounds_eq, draws.faces_eq⟩

theorem count (draws : session.Draws requests faces after) (n : Nat) :
    session.Draws requests faces (after.count n) :=
  ⟨draws.limit_eq, draws.given, draws.bounds_eq, draws.faces_eq⟩

/-- Recording a step draws nothing. -/
theorem record (draws : session.Draws requests faces after) (step : Step) :
    session.Draws requests faces (after.record (.step step)) where
  limit_eq := draws.limit_eq
  given := draws.given
  bounds_eq := by
    rw [← draws.bounds_eq]
    exact (Journal.bounds_push _ _).trans (List.append_nil _)
  faces_eq := by
    rw [← draws.faces_eq]
    exact (Journal.faces_push _ _).trans (List.append_nil _)

end Draws

theorem draws_draw (session : Session σ) (bounds : Bounds) :
    session.Draws [bounds] [(session.draw bounds).1] (session.draw bounds).2 where
  limit_eq := rfl
  given := rfl
  bounds_eq := Journal.bounds_push _ _
  faces_eq := Journal.faces_push _ _

theorem draws_drawMany {bounds : Bounds} {n : Nat} {faces : Pool} {session after : Session σ}
    (drawn : session.drawMany bounds n = (faces, after)) :
    session.Draws (List.replicate n bounds) faces after := by
  induction n generalizing session faces with
  | zero =>
    cases drawn
    exact .refl _
  | succ n ih =>
    rw [drawMany_succ] at drawn
    cases drawn
    exact (session.draws_draw bounds).trans (ih rfl)

end Session

/-! ## The draws of a roll -/

theorem Dice.Rolls.draws {term : Dice} {session after : Session σ} {rolled : Rolled}
    (rolls : term.Rolls session rolled after) :
    session.Draws term.requests rolled.results after := by
  cases rolls with
  | intro within draws sum => exact (Session.draws_drawMany draws).of_counted.record _

/-- A tree that is rolled draws the faces of all its terms, and its outcome keeps them in order. -/
theorem Expr.Rolls.draws {tree : Expr} {session after : Session σ} {outcome : Outcome}
    (rolls : tree.Rolls session outcome after) :
    session.Draws (tree.terms.flatMap Dice.requests) outcome.faces after := by
  induction rolls with
  | int score session => exact .refl session
  | @dice term _ _ _ rolls =>
    rw [Expr.terms, List.flatMap_singleton]
    exact rolls.draws
  | group rolls ih => exact ih
  | flagged rolls isOperand evaluates isPool selects ih => exact ih.record _
  | binary leftRolls rightRolls applies leftIh rightIh =>
    rw [Expr.terms, List.flatMap_append]
    exact (leftIh.trans rightIh).record _

theorem Expr.Rolls.length_faces {tree : Expr} {session after : Session σ} {outcome : Outcome}
    (rolls : tree.Rolls session outcome after) :
    outcome.faces.length = Dice.number tree.terms := by
  rw [rolls.draws.length_eq, Dice.length_requests]

/-- What a tree comes to is determined by the faces that are given, from whatever source. -/
theorem Expr.Rolls.outcome_unique {τ : Type} [Source τ] {tree : Expr} {session after : Session σ}
    {other otherAfter : Session τ} {outcome otherOutcome : Outcome}
    (rolls : tree.Rolls session outcome after)
    (otherRolls : tree.Rolls other otherOutcome otherAfter)
    (faces : outcome.faces = otherOutcome.faces) : outcome = otherOutcome := by
  induction rolls generalizing other otherAfter otherOutcome with
  | int score session =>
    cases otherRolls
    rfl
  | dice rolls =>
    cases otherRolls with
    | dice otherRolls =>
      obtain ⟨_, _, sum⟩ := rolls
      obtain ⟨_, _, otherSum⟩ := otherRolls
      simp only [Outcome.faces] at faces
      subst faces
      cases sum.symm.trans otherSum
      rfl
  | group rolls ih =>
    cases otherRolls with
    | group otherRolls => rw [ih otherRolls faces]
  | flagged rolls isOperand evaluates isPool selects ih =>
    cases otherRolls with
    | flagged otherRolls otherOperand otherEvaluates otherPool otherSelects =>
      cases ih otherRolls faces
      cases isOperand.symm.trans otherOperand
      cases evaluates.symm.trans otherEvaluates
      cases isPool.symm.trans otherPool
      obtain ⟨rfl, rfl⟩ := selects.unique otherSelects
      rfl
  | binary leftRolls rightRolls applies leftIh rightIh =>
    cases otherRolls with
    | binary otherLeft otherRight otherApplies =>
      have lengths := leftRolls.length_faces.trans otherLeft.length_faces.symm
      obtain ⟨leftFaces, rightFaces⟩ := List.append_inj faces lengths
      cases leftIh otherLeft leftFaces
      cases rightIh otherRight rightFaces
      cases applies.symm.trans otherApplies
      rfl

end Tabletop
