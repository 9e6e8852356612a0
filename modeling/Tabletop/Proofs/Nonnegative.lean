import Tabletop.Proofs.Draws
import Tabletop.Proofs.Leading
import Tabletop.Proofs.RoundTrip

/-!
# Rolls of numbered dice

Numbered dice show one at least, and a text holds no negative numbers. Selection takes results away,
and arithmetic makes nothing negative of what is not. So no total and no result in the outcome of a
roll of numbered dice is below zero. A subtraction does not even give zero.
-/

namespace Tabletop

/-- No result of the pool is below the bound. -/
def Pool.AtLeast (bound : Int) (pool : Pool) : Prop :=
  ∀ result ∈ pool, bound ≤ result.val

/-- The total of the node is not below the bound, and no result of it is, if it has a pool. -/
structure Outcome.AtLeast (bound : Int) (outcome : Outcome) : Prop where
  total : bound ≤ outcome.total.val
  pool : ∀ {results}, outcome.pool = .ok results → results.AtLeast bound

/-! ## Arithmetic and pools -/

/-- A difference is raised to one, whatever is subtracted. -/
theorem BinaryOp.one_le_of_subtract {a b result : Score}
    (done : subtract.apply a b = .ok result) : 1 ≤ result.val := by
  rw [exact_of_apply done]
  exact le_max_left 1 (a.val - b.val)

namespace Pool.AtLeast

variable {bound : Int} {pool changed : Pool}

theorem sum_nonneg (nonneg : pool.AtLeast 0) : 0 ≤ pool.sum :=
  Pool.sum_nonneg nonneg

/-- Results that are changed one by one are not below a bound that each of them keeps. -/
theorem of_mapM {change : Score → Except RollError Score}
    (keeps : ∀ result ∈ pool, ∀ next, change result = .ok next → bound ≤ next.val)
    (done : pool.mapM change = .ok changed) : changed.AtLeast bound := by
  obtain ⟨value, rfl, applied⟩ := exists_map_of_mapM done
  intro next member
  obtain ⟨result, isResult, rfl⟩ := List.mem_map.mp member
  exact keeps result isResult _ (applied result isResult)

end Pool.AtLeast

/-! ## Nodes -/

namespace Outcome

/-- A subtraction stores a difference and computes more of them for its pool. -/
theorem atLeast_one_of_subtract {left right : Outcome} {total : Score}
    (consistent : (binary .subtract left right total).Consistent) :
    (binary .subtract left right total).AtLeast 1 := by
  refine ⟨BinaryOp.one_le_of_subtract consistent, fun isPool => ?_⟩
  obtain ⟨before, _, applies⟩ := RollError.bind_eq_ok_iff.mp isPool
  exact .of_mapM (fun _ _ _ done => BinaryOp.one_le_of_subtract done) applies

/-- If no number and no face in a consistent outcome is negative, then no node of it has a negative
total or a negative result. -/
theorem nonneg_of_consistent {outcome : Outcome}
    (consistent : ∀ node ∈ outcome.nodes, node.Consistent) (wellFormed : outcome.toExpr.WellFormed)
    (faces : outcome.faces.AtLeast 0) : ∀ node ∈ outcome.nodes, node.AtLeast 0 := by
  induction outcome with
  | literal score => exact List.forall_mem_singleton.mpr ⟨wellFormed, nofun⟩
  | dice rolled =>
    have sum := (consistent _ (mem_nodes _)).2
    refine List.forall_mem_singleton.mpr ⟨?_, fun isPool => ?_⟩
    · exact sum ▸ faces.sum_nonneg
    · cases isPool
      exact faces
  | group text inner ih =>
    obtain ⟨innerConsistent, _⟩ := List.forall_mem_append.mp consistent
    have inside := ih innerConsistent wellFormed faces
    have body := inside inner (mem_nodes inner)
    exact List.forall_mem_append.mpr
      ⟨inside, List.forall_mem_singleton.mpr ⟨body.total, body.pool⟩⟩
  | flagged target flag choices selected total ih =>
    obtain ⟨targetConsistent, own⟩ := List.forall_mem_append.mp consistent
    obtain ⟨isChoices, chooses, sum⟩ := own _ (List.mem_singleton_self _)
    have inside := ih targetConsistent wellFormed.2.1 faces
    have nonneg : Pool.AtLeast 0 selected := fun result member =>
      (inside target (mem_nodes target)).pool isChoices result (chooses.sublist.subset member)
    refine List.forall_mem_append.mpr ⟨inside, List.forall_mem_singleton.mpr ⟨?_, fun isPool => ?_⟩⟩
    · exact sum ▸ nonneg.sum_nonneg
    · cases isPool
      exact nonneg
  | binary op left right total leftIh rightIh =>
    obtain ⟨sides, own⟩ := List.forall_mem_append.mp consistent
    obtain ⟨leftConsistent, rightConsistent⟩ := List.forall_mem_append.mp sides
    obtain ⟨leftFaces, rightFaces⟩ := List.forall_mem_append.mp faces
    have leftInside := leftIh leftConsistent wellFormed.1 leftFaces
    have rightInside := rightIh rightConsistent wellFormed.2.1 rightFaces
    have first := leftInside left (mem_nodes left)
    have second := rightInside right (mem_nodes right)
    have applies : op.apply left.total right.total = .ok total := own _ (List.mem_singleton_self _)
    refine List.forall_mem_append.mpr ⟨List.forall_mem_append.mpr ⟨leftInside, rightInside⟩,
      List.forall_mem_singleton.mpr ⟨?_, fun isPool => ?_⟩⟩
    · exact BinaryOp.nonneg_of_apply first.total second.total applies
    · obtain ⟨before, leftPool, changes⟩ := RollError.bind_eq_ok_iff.mp isPool
      exact .of_mapM (fun result member _ done =>
        BinaryOp.nonneg_of_apply (first.pool leftPool result member) second.total done) changes

end Outcome

/-! ## Faces -/

/-- Numbered dice are asked for one at least. -/
theorem Dice.low_of_mem_requests {terms : List Dice}
    (numbered : ∀ term ∈ terms, ∃ count, term.sides = .numbered count) :
    ∀ bounds ∈ terms.flatMap requests, bounds.low = .one := by
  intro bounds member
  obtain ⟨term, isTerm, isRequest⟩ := List.mem_flatMap.mp member
  obtain ⟨count, sides⟩ := numbered term isTerm
  rw [List.eq_of_mem_replicate isRequest, sides]
  rfl

namespace Expression

variable {σ : Type} [Source σ]

/-- An accepted text whose dice are all numbered is rolled with a source that keeps to the bounds it
is asked for. Then no node of the outcome has a negative total, nor a negative result if it has a
pool, and what a subtraction gives is at least one, for its total and for its results. -/
theorem roll_atLeast {text : String} {expression : Expression} {session after : Session σ}
    {roll : Roll} {requests : List Bounds} {faces : Pool} (parsed : parse text = .ok expression)
    (numbered : ∀ term ∈ expression.root.terms, ∃ count, term.sides = .numbered count)
    (done : expression.roll session = .ok roll after)
    (draws : session.Draws requests faces after)
    (within : List.Forall₂ (fun bounds face => bounds.low ≤ face ∧ face ≤ bounds.high)
      requests faces) :
    ∀ node ∈ roll.outcome.nodes, node.AtLeast 0 ∧
      ∀ left right total, node = .binary .subtract left right total → node.AtLeast 1 := by
  have wellFormed := (parse_eq_ok_iff.mp parsed).1.wellFormed.1
  have rolls := (roll_eq_ok_iff.mp done).2
  have allDraws := rolls.draws.of_counted
  obtain ⟨shape, consistent⟩ := rolls.consistent
  cases draws.requests_unique allDraws
  cases draws.faces_unique allDraws
  have signs : List.Forall₂ (fun _ face => 0 ≤ face.val ∧ True)
      (expression.root.terms.flatMap Dice.requests) roll.outcome.faces := by
    have ones := Dice.low_of_mem_requests numbered
    refine ((List.forall₂_and_left _ _).mpr ⟨ones, within⟩).imp fun bounds face bounded => ?_
    have positive : Score.one ≤ face := bounded.1 ▸ bounded.2.1
    exact ⟨le_trans (by decide) positive, trivial⟩
  have nonneg : roll.outcome.faces.AtLeast 0 := ((List.forall₂_and_left _ _).mp signs.flip).1
  intro node member
  refine ⟨Outcome.nonneg_of_consistent consistent (shape ▸ wellFormed) nonneg node member, ?_⟩
  rintro left right total rfl
  exact Outcome.atLeast_one_of_subtract (consistent _ member)

/-- From two dice five is subtracted, which raises both results to one, and the better of them less
another die is one again. -/
theorem roll_atLeast_raised :
    let six : Tally := ⟨6, by decide, by decide⟩
    let four : Tally := ⟨4, by decide, by decide⟩
    let two : Score := ⟨2, by decide⟩
    let three : Score := ⟨3, by decide⟩
    let five : Score := ⟨5, by decide⟩
    let pair : Expr := .binary .subtract (.dice ⟨⟨2, by decide, by decide⟩, .numbered six⟩)
      (.int five)
    let expression : Expression := ⟨"(2d6-5)!adv-1d4",
      .binary .subtract (.flagged (.group "2d6-5" pair) ⟨.adv, none⟩)
        (.dice ⟨.one, .numbered four⟩)⟩
    let session := Session.start none (Loaded.sequence ([two, five, three].getD · .one) 0)
    parse "(2d6-5)!adv-1d4" = .ok expression ∧
      (∀ term ∈ expression.root.terms, ∃ count, term.sides = .numbered count) ∧
      ∃ roll after, expression.roll session = .ok roll after ∧ roll.total = .one ∧
        ∀ node ∈ roll.outcome.nodes, node.AtLeast 0 ∧
          ∀ left right total, node = .binary .subtract left right total → node.AtLeast 1 := by
  intro six four two three five pair expression session
  have parsed : parse "(2d6-5)!adv-1d4" = .ok expression := by decide +kernel
  have numbered : ∀ term ∈ expression.root.terms, ∃ count, term.sides = .numbered count :=
    List.forall_mem_cons.mpr ⟨⟨six, rfl⟩, List.forall_mem_singleton.mpr ⟨four, rfl⟩⟩
  obtain ⟨roll, after, done, one, faces⟩ : ∃ roll after, expression.roll session = .ok roll after ∧
      roll.total = .one ∧ roll.outcome.faces = [two, five, three] :=
    ⟨_, _, rfl, rfl, rfl⟩
  have draws := (roll_eq_ok_iff.mp done).2.draws.of_counted
  rw [faces] at draws
  have within : List.Forall₂ (fun bounds face => bounds.low ≤ face ∧ face ≤ bounds.high)
      (expression.root.terms.flatMap Dice.requests) [two, five, three] := by decide
  exact ⟨parsed, numbered, roll, after, done, one, roll_atLeast parsed numbered done draws within⟩

end Expression

end Tabletop
