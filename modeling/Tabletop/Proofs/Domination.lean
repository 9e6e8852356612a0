import Tabletop.Proofs.Arithmetic
import Tabletop.Proofs.Consistency
import Tabletop.Proofs.Draws
import Tabletop.Proofs.RoundTrip

/-!
# Better rolls

One pool is below another if their results can be paired so that none of the first is above its
partner in the second. The partners need not stand in the same place: the lowest results of the two
pools may do so anywhere, and yet what is left without them is below again. Arithmetic, selection
and sums respect this order of pools, and so a roll with better faces comes to no less, as long as
no dice are subtracted or divided by.
-/

namespace Tabletop

/-- The first score is not negative and not above the second. -/
def Score.Below (low high : Score) : Prop :=
  0 ≤ low.val ∧ low ≤ high

/-- The results of the pools can be paired so that each of the first is below its partner. -/
def Pool.Below (low high : Pool) : Prop :=
  Multiset.Rel Score.Below (low : Multiset Score) (high : Multiset Score)

/-- The total of the first outcome is below that of the second, and so is its pool if both have
one. -/
structure Outcome.Below (low high : Outcome) : Prop where
  total : low.total.Below high.total
  pool : ∀ {lowPool highPool}, low.pool = .ok lowPool → high.pool = .ok highPool →
    lowPool.Below highPool

/-- No dice stand on the right of a subtraction or of a division. -/
def Expr.LowersByFixed : Expr → Prop
  | .int _ | .dice _ => True
  | .group _ body => body.LowersByFixed
  | .flagged target _ => target.LowersByFixed
  | .binary op left right =>
    left.LowersByFixed ∧ right.LowersByFixed ∧ (op.lowers = true → right.terms = [])

/-! ## Pools -/

/-- Pairs of faces are pairs in each part of two pools, if the first parts are equally long. -/
theorem Pool.forall₂_of_append {lowFirst lowSecond highFirst highSecond : Pool}
    (lengths : lowFirst.length = highFirst.length)
    (faces : List.Forall₂ Score.Below (lowFirst ++ lowSecond) (highFirst ++ highSecond)) :
    List.Forall₂ Score.Below lowFirst highFirst ∧
      List.Forall₂ Score.Below lowSecond highSecond := by
  have first := List.forall₂_take_append _ _ _ faces
  have second := List.forall₂_drop_append _ _ _ faces
  rw [List.take_left' lengths] at first
  rw [List.drop_left' lengths] at second
  exact ⟨first, second⟩

/-- Arithmetic on scores respects their order. -/
theorem BinaryOp.apply_below {op : BinaryOp} {a b lowRight highRight low high : Score}
    (left : a.Below b) (right : lowRight.Below highRight)
    (fixed : op.lowers = true → lowRight = highRight) (lowDone : op.apply a lowRight = .ok low)
    (highDone : op.apply b highRight = .ok high) : low.Below high := by
  constructor
  · exact nonneg_of_apply left.1 right.1 lowDone
  · change low.val ≤ high.val
    rw [exact_of_apply lowDone, exact_of_apply highDone]
    exact op.exact_le left.1 left.2 right.1 right.2 fun lowers => congrArg Score.val (fixed lowers)

namespace Pool.Below

variable {low high : Pool}

theorem of_forall₂ (faces : List.Forall₂ Score.Below low high) : low.Below high := by
  induction faces with
  | nil => exact .zero
  | cons first _ ih => exact .cons first ih

theorem length_eq (below : low.Below high) : low.length = high.length :=
  Multiset.card_eq_card_of_rel below

theorem exists_above (below : low.Below high) {result : Score} (member : result ∈ low) :
    ∃ partner ∈ high, result.Below partner :=
  Multiset.exists_mem_of_rel_of_mem below member

theorem exists_below (below : low.Below high) {result : Score} (member : result ∈ high) :
    ∃ partner ∈ low, partner.Below result :=
  Multiset.exists_mem_of_rel_of_mem (Multiset.rel_flip.mpr below) member

theorem sum_nonneg (below : low.Below high) : 0 ≤ low.sum := by
  refine List.sum_nonneg (List.forall_mem_map.mpr fun result member => ?_)
  obtain ⟨_, _, nonneg, _⟩ := below.exists_above member
  exact nonneg

theorem sum_le (below : low.Below high) : low.sum ≤ high.sum := by
  have values : Multiset.Rel (· ≤ ·) ((low : Multiset Score).map Score.val)
      ((high : Multiset Score).map Score.val) :=
    Multiset.rel_map.mpr (below.mono fun _ _ _ _ pair => pair.2)
  exact Multiset.sum_le_sum_of_rel_le values

/-- Any result may be taken from the first pool, and the least one from the second. -/
theorem erase (below : low.Below high) {gone least : Score} (goneMember : gone ∈ low)
    (leastMember : least ∈ high) (isLeast : ∀ result ∈ high, least ≤ result) :
    Pool.Below (low.erase gone) (high.erase least) := by
  have lowEq : (low : Multiset Score) = gone ::ₘ ↑(low.erase gone) :=
    Multiset.coe_eq_coe.mpr (List.perm_cons_erase goneMember)
  have highEq : (high : Multiset Score) = least ::ₘ ↑(high.erase least) :=
    Multiset.coe_eq_coe.mpr (List.perm_cons_erase leastMember)
  unfold Pool.Below at below
  rw [lowEq] at below
  obtain ⟨partner, others, pair, rest, split⟩ := Multiset.rel_cons_left.mp below
  have above : least ≤ partner := by
    refine isLeast partner (Multiset.mem_coe.mp ?_)
    rw [split]
    exact Multiset.mem_cons_self partner others
  have pairs := Multiset.cons_eq_cons.mp (highEq.symm.trans split)
  rcases pairs with ⟨_, same⟩ | ⟨_, common, left, right⟩
  · rw [Pool.Below, same]
    exact rest
  · -- the partner of the least result goes to the partner of the one that is gone
    rw [right] at rest
    obtain ⟨orphan, others, orphanPair, commonPairs, lowSplit⟩ := Multiset.rel_cons_right.mp rest
    rw [Pool.Below, left, lowSplit]
    exact .cons ⟨orphanPair.1, orphanPair.2.trans above⟩ commonPairs

theorem discardLeast (below : low.Below high) : low.discardLeast.Below high.discardLeast := by
  unfold Pool.discardLeast
  cases lowLeast : low.min? with
  | none =>
    cases List.min?_eq_none_iff.mp lowLeast
    cases List.eq_nil_of_length_eq_zero below.length_eq.symm
    exact .zero
  | some gone =>
    have goneMember := (List.min?_eq_some_iff.mp lowLeast).1
    cases highLeast : high.min? with
    | none =>
      cases List.min?_eq_none_iff.mp highLeast
      cases List.eq_nil_of_length_eq_zero below.length_eq
      cases goneMember
    | some least =>
      obtain ⟨leastMember, isLeast⟩ := List.min?_eq_some_iff.mp highLeast
      exact below.erase goneMember leastMember isLeast

theorem discard (below : low.Below high) (n : Nat) : (low.discard n).Below (high.discard n) := by
  induction n generalizing low high with
  | zero => exact below
  | succ n ih => exact ih below.discardLeast

theorem keep (below : low.Below high) (count : Score) :
    (low.keep count).Below (high.keep count) := by
  unfold Pool.keep
  rw [below.length_eq]
  split
  · exact .zero
  · exact below.discard _

theorem drop (below : low.Below high) (count : Score) :
    (low.drop count).Below (high.drop count) := by
  unfold Pool.drop
  rw [below.length_eq]
  split
  · exact .zero
  · exact below.discard _

/-- What a flag chooses from the first pool is below what it chooses from the second. -/
theorem chooses {flag : Flag} {lowSelected highSelected : Pool} (below : low.Below high)
    (lowChooses : flag.Chooses low lowSelected) (highChooses : flag.Chooses high highSelected) :
    lowSelected.Below highSelected := by
  unfold Flag.Chooses at lowChooses highChooses
  cases kind : flag.kind with
  | advantage =>
    simp only [kind] at lowChooses highChooses
    obtain ⟨best, rfl, member, _⟩ := lowChooses
    obtain ⟨highBest, rfl, _, bound⟩ := highChooses
    obtain ⟨partner, partnerMember, nonneg, le⟩ := below.exists_above member
    exact of_forall₂ (.cons ⟨nonneg, le.trans (bound partner partnerMember)⟩ .nil)
  | disadvantage =>
    simp only [kind] at lowChooses highChooses
    obtain ⟨worst, rfl, member, bound⟩ := lowChooses
    obtain ⟨highWorst, rfl, highMember, _⟩ := highChooses
    obtain ⟨partner, partnerMember, _, le⟩ := below.exists_below highMember
    obtain ⟨_, _, nonneg, _⟩ := below.exists_above member
    exact of_forall₂ (.cons ⟨nonneg, (bound partner partnerMember).trans le⟩ .nil)
  | keep =>
    simp only [kind] at lowChooses highChooses
    subst lowChooses highChooses
    exact below.keep _
  | drop =>
    simp only [kind] at lowChooses highChooses
    subst lowChooses highChooses
    exact below.drop _
  | grow | shrink | reroll =>
    simp only [kind] at lowChooses

/-- Arithmetic with each result respects the order of pools. -/
theorem apply {op : BinaryOp} {lowRight highRight : Score} {lowChanged highChanged : Pool}
    (below : low.Below high) (right : lowRight.Below highRight)
    (fixed : op.lowers = true → lowRight = highRight)
    (lowDone : low.mapM (op.apply · lowRight) = .ok lowChanged)
    (highDone : high.mapM (op.apply · highRight) = .ok highChanged) :
    lowChanged.Below highChanged := by
  obtain ⟨lowValue, rfl, lowApplied⟩ := Pool.exists_map_of_mapM lowDone
  obtain ⟨highValue, rfl, highApplied⟩ := Pool.exists_map_of_mapM highDone
  refine Multiset.rel_map.mpr (below.mono fun a aMember b bMember pair => ?_)
  exact BinaryOp.apply_below pair right fixed (lowApplied a aMember) (highApplied b bMember)

/-- Sums respect the order of pools. -/
theorem total (below : low.Below high) {lowTotal highTotal : Score}
    (lowSum : lowTotal.val = low.sum) (highSum : highTotal.val = high.sum) :
    lowTotal.Below highTotal := by
  constructor
  · rw [lowSum]
    exact below.sum_nonneg
  · change lowTotal.val ≤ highTotal.val
    rw [lowSum, highSum]
    exact below.sum_le

end Pool.Below

/-! ## Trees -/

/-- It is enough to know one pool of each outcome. -/
theorem Outcome.Below.of_pool {low high : Outcome} {lowPool highPool : Pool}
    (total : low.total.Below high.total) (lowIs : low.pool = .ok lowPool)
    (highIs : high.pool = .ok highPool) (below : lowPool.Below highPool) : low.Below high := by
  refine ⟨total, fun lowAgain highAgain => ?_⟩
  cases lowIs.symm.trans lowAgain
  cases highIs.symm.trans highAgain
  exact below

variable {σ τ : Type} [Source σ] [Source τ]

/-- A tree without dice always comes to the same. -/
theorem Expr.Rolls.total_eq_of_terms_nil {tree : Expr} {session after : Session σ}
    {other otherAfter : Session τ} {low high : Outcome} (rolls : tree.Rolls session low after)
    (otherRolls : tree.Rolls other high otherAfter) (noDice : tree.terms = []) :
    low.total = high.total := by
  have lowFaces := rolls.length_faces
  have highFaces := otherRolls.length_faces
  rw [noDice, Dice.number_nil, List.length_eq_zero_iff] at lowFaces highFaces
  exact congrArg Outcome.total (rolls.outcome_unique otherRolls (lowFaces.trans highFaces.symm))

/-- With better faces a tree comes to no less, and its pool is no worse. -/
theorem Expr.Rolls.below_of_faces {tree : Expr} {session after : Session σ}
    {other otherAfter : Session τ} {low high : Outcome} (wellFormed : tree.WellFormed)
    (fixed : tree.LowersByFixed) (rolls : tree.Rolls session low after)
    (otherRolls : tree.Rolls other high otherAfter)
    (faces : List.Forall₂ Score.Below low.faces high.faces) : low.Below high := by
  induction tree generalizing session after other otherAfter low high with
  | int score =>
    cases rolls
    cases otherRolls
    exact ⟨⟨wellFormed, le_refl score⟩, nofun⟩
  | dice term =>
    cases rolls with
    | dice rolls =>
      cases otherRolls with
      | dice otherRolls =>
        have results := Pool.Below.of_forall₂ faces
        have totals := results.total rolls.consistent.2.2 otherRolls.consistent.2.2
        exact .of_pool totals rfl rfl results
  | group text body ih =>
    cases rolls with
    | group rolls =>
      cases otherRolls with
      | group otherRolls =>
        have inner := ih wellFormed fixed rolls otherRolls faces
        exact ⟨inner.total, inner.pool⟩
  | flagged target flag ih =>
    obtain ⟨lowInner, _, _, _, _, rfl, lowRolls, lowPool, lowChooses, lowSum⟩ := rolls.of_flagged
    obtain ⟨highInner, _, _, _, _, rfl, highRolls, highPool, highChooses, highSum⟩ :=
      otherRolls.of_flagged
    have choices := (ih wellFormed.2.1 fixed lowRolls highRolls faces).pool lowPool highPool
    have selected := choices.chooses lowChooses highChooses
    exact .of_pool (selected.total lowSum highSum) rfl rfl selected
  | binary op left right leftIh rightIh =>
    obtain ⟨leftWellFormed, rightWellFormed, _⟩ := wellFormed
    obtain ⟨leftFixed, rightFixed, noDice⟩ := fixed
    cases rolls with
    | @binary _ _ _ lowFirst lowSecond _ _ _ _ leftRolls rightRolls applies =>
      cases otherRolls with
      | @binary _ _ _ highFirst highSecond _ _ _ _ otherLeft otherRight otherApplies =>
        have lengths := leftRolls.length_faces.trans otherLeft.length_faces.symm
        obtain ⟨leftFaces, rightFaces⟩ := Pool.forall₂_of_append lengths faces
        have first := leftIh leftWellFormed leftFixed leftRolls otherLeft leftFaces
        have second := rightIh rightWellFormed rightFixed rightRolls otherRight rightFaces
        have same : op.lowers = true → lowSecond.total = highSecond.total := fun lowers =>
          rightRolls.total_eq_of_terms_nil otherRight (noDice lowers)
        refine ⟨BinaryOp.apply_below first.total second.total same applies otherApplies, ?_⟩
        intro lowPool highPool lowIs highIs
        obtain ⟨lowResults, lowLeft, lowDone⟩ := RollError.bind_eq_ok_iff.mp lowIs
        obtain ⟨highResults, highLeft, highDone⟩ := RollError.bind_eq_ok_iff.mp highIs
        exact (first.pool lowLeft highLeft).apply second.total same lowDone highDone

namespace Expression

/-- An accepted text in which no dice are subtracted or divided by is rolled twice, from any
sources, under any limits and in any states of the sessions. If each face of the first roll is at
least one, and none is above the face of the same die in the second roll, then the total of the
first roll is not above that of the second. -/
theorem roll_le_of_faces_le {text : String} {expression : Expression} {session lowAfter : Session σ}
    {other highAfter : Session τ} {low high : Roll} {requests otherRequests : List Bounds}
    {faces better : Pool} (parsed : parse text = .ok expression)
    (fixed : expression.root.LowersByFixed)
    (lowDone : expression.roll session = .ok low lowAfter)
    (highDone : expression.roll other = .ok high highAfter)
    (lowDraws : session.Draws requests faces lowAfter)
    (highDraws : other.Draws otherRequests better highAfter)
    (le : List.Forall₂ (fun face otherFace => 1 ≤ face.val ∧ face ≤ otherFace) faces better) :
    low.total ≤ high.total := by
  have wellFormed := (parse_eq_ok_iff.mp parsed).1.wellFormed.1
  obtain ⟨_, lowRolls⟩ := roll_eq_ok_iff.mp lowDone
  obtain ⟨_, highRolls⟩ := roll_eq_ok_iff.mp highDone
  have pairs : List.Forall₂ Score.Below faces better :=
    le.imp fun _ _ pair => ⟨Int.le_of_lt pair.1, pair.2⟩
  rw [lowDraws.faces_unique lowRolls.draws.of_counted,
    highDraws.faces_unique highRolls.draws.of_counted] at pairs
  exact (lowRolls.below_of_faces wellFormed fixed highRolls pairs).total.2

/-- Of three dice the two highest are kept. That is the second and the third in one roll, and the
first and the second in a better one. -/
theorem roll_le_of_faces_le_kept :
    let die : Sides := .numbered ⟨6, by decide, by decide⟩
    let term : Dice := ⟨⟨3, by decide, by decide⟩, die⟩
    let kept : Expr := .flagged (.dice term) ⟨.keep, some ⟨2, by decide⟩⟩
    let expression : Expression := ⟨"3d6!keep(2)-4", .binary .subtract kept (.int ⟨4, by decide⟩)⟩
    let one : Score := ⟨1, by decide⟩
    let two : Score := ⟨2, by decide⟩
    let five : Score := ⟨5, by decide⟩
    let six : Score := ⟨6, by decide⟩
    let session := Session.start none (Loaded.sequence ([one, five, two].getD · one) 0)
    let other := Session.start none (Loaded.sequence ([six, five, two].getD · one) 0)
    parse "3d6!keep(2)-4" = .ok expression ∧ expression.root.LowersByFixed ∧
      ∃ low lowAfter high highAfter, expression.roll session = .ok low lowAfter ∧
        expression.roll other = .ok high highAfter ∧ low.total.val = 3 ∧ high.total.val = 7 ∧
        low.total ≤ high.total := by
  intro die term kept expression one two five six session other
  have parsed : parse "3d6!keep(2)-4" = .ok expression := by decide +kernel
  have fixed : expression.root.LowersByFixed := ⟨trivial, trivial, fun _ => rfl⟩
  cases lowDone : expression.roll session with
  | ok low lowAfter =>
    cases highDone : expression.roll other with
    | ok high highAfter =>
      have lowFaces : low.outcome.faces = [one, five, two] ∧ low.total.val = 3 := by
        cases lowDone
        exact ⟨rfl, rfl⟩
      have highFaces : high.outcome.faces = [six, five, two] ∧ high.total.val = 7 := by
        cases highDone
        exact ⟨rfl, rfl⟩
      have lowDraws := (roll_eq_ok_iff.mp lowDone).2.draws.of_counted
      have highDraws := (roll_eq_ok_iff.mp highDone).2.draws.of_counted
      rw [lowFaces.1] at lowDraws
      rw [highFaces.1] at highDraws
      refine ⟨parsed, fixed, low, lowAfter, high, highAfter, rfl, rfl, lowFaces.2, highFaces.2, ?_⟩
      exact roll_le_of_faces_le parsed fixed lowDone highDone lowDraws highDraws (by decide)
    | error error after => cases highDone
  | error error after => cases lowDone

end Expression

end Tabletop
