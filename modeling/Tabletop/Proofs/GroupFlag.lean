import Tabletop.Proofs.Alike
import Tabletop.Proofs.Arithmetic
import Tabletop.Proofs.Consistency
import Tabletop.Proofs.Draws

/-!
# Flags on groups

A flag for the best or the worst result may stand behind a group of arithmetic that begins with a
dice term, or directly at the dice term. In the one case the arithmetic is done with each result
before one is taken, in the other with the result that was taken. Both come to the same total, since
arithmetic with operands that are not negative does not turn the order of two results around.
-/

namespace Tabletop

/-- The result that a flag for the best or for the worst one takes from a pool. -/
inductive Flag.Picks (flag : Flag) (choices : Pool) (pick : Score) : Prop where
  | best (kind : flag.kind = .advantage) (found : choices.advantage = .ok pick) :
      Picks flag choices pick
  | worst (kind : flag.kind = .disadvantage) (found : choices.disadvantage = .ok pick) :
      Picks flag choices pick

/-- The right operands of a chain of arithmetic from left to right, also of one that is grouped or
flagged as a whole. -/
def Outcome.trailing : Outcome → List Outcome
  | .literal _ | .dice _ => []
  | .group _ inner => inner.trailing
  | .flagged target _ _ _ _ => target.trailing
  | .binary _ left right _ => left.trailing ++ [right]

namespace Flag

variable {flag : Flag} {choices : Pool}

theorem Picks.unique {pick other : Score} (picks : flag.Picks choices pick)
    (otherPicks : flag.Picks choices other) : pick = other := by
  cases picks with
  | best kind found =>
    cases otherPicks with
    | best _ otherFound => exact Except.ok.inj (found.symm.trans otherFound)
    | worst otherKind _ => exact absurd (kind.symm.trans otherKind) (by decide)
  | worst kind found =>
    cases otherPicks with
    | best otherKind _ => exact absurd (kind.symm.trans otherKind) (by decide)
    | worst _ otherFound => exact Except.ok.inj (found.symm.trans otherFound)

theorem exists_picks (kind : flag.kind = .advantage ∨ flag.kind = .disadvantage)
    (nonempty : choices ≠ []) : ∃ pick, flag.Picks choices pick := by
  rcases kind with kind | kind
  · cases found : choices.max? with
    | some best => exact ⟨best, .best kind (by rw [Pool.advantage, found])⟩
    | none => exact absurd (List.max?_eq_none_iff.mp found) nonempty
  · cases found : choices.min? with
    | some worst => exact ⟨worst, .worst kind (by rw [Pool.disadvantage, found])⟩
    | none => exact absurd (List.min?_eq_none_iff.mp found) nonempty

/-- The operator of the flag gives the result that the flag takes. -/
theorem evaluate_eq_ok_iff_picks {operand result : Operand}
    (kind : flag.kind = .advantage ∨ flag.kind = .disadvantage)
    (isPool : ∀ user, operand.toPool user = .ok choices) :
    (Operator.ofFlag flag operand).evaluate = .ok result ↔
      ∃ pick, flag.Picks choices pick ∧ result = .number pick := by
  unfold Operator.ofFlag
  rcases kind with kind | kind
  all_goals
    simp only [kind, Operator.evaluate, isPool, RollError.bind_eq_ok_iff]
    constructor
  · rintro ⟨_, same, best, found, equal⟩
    cases same
    cases equal
    exact ⟨best, .best kind found, rfl⟩
  · rintro ⟨pick, picks, rfl⟩
    cases picks with
    | best _ found => exact ⟨choices, rfl, pick, found, rfl⟩
    | worst otherKind _ => exact absurd (kind.symm.trans otherKind) (by decide)
  · rintro ⟨_, same, worst, found, equal⟩
    cases same
    cases equal
    exact ⟨worst, .worst kind found, rfl⟩
  · rintro ⟨pick, picks, rfl⟩
    cases picks with
    | best otherKind _ => exact absurd (kind.symm.trans otherKind) (by decide)
    | worst _ found => exact ⟨choices, rfl, pick, found, rfl⟩

/-- Arithmetic with each result takes the result that was best, or worst, to the one that is. -/
theorem Picks.apply {op : BinaryOp} {operand pick : Score} {changed : Pool}
    (picks : flag.Picks choices pick) (nonneg : 0 ≤ operand.val)
    (applies : choices.mapM (op.apply · operand) = .ok changed) :
    ∃ result, op.apply pick operand = .ok result ∧ flag.Picks changed result := by
  obtain ⟨value, rfl, applied⟩ := Pool.exists_map_of_mapM applies
  have mono : ∀ low ∈ choices, ∀ high ∈ choices, low ≤ high → value low ≤ value high :=
    fun low lowMember high highMember le =>
      BinaryOp.apply_le_left le nonneg (applied low lowMember) (applied high highMember)
  cases picks with
  | best kind found =>
    obtain ⟨member, bound⟩ := Pool.advantage_eq_ok_iff.mp found
    have best : Pool.advantage (choices.map value) = .ok (value pick) := by
      refine Pool.advantage_eq_ok_iff.mpr ⟨List.mem_map_of_mem member, List.forall_mem_map.mpr ?_⟩
      exact fun result below => mono result below pick member (bound result below)
    exact ⟨value pick, applied pick member, .best kind best⟩
  | worst kind found =>
    obtain ⟨member, bound⟩ := Pool.disadvantage_eq_ok_iff.mp found
    have worst : Pool.disadvantage (choices.map value) = .ok (value pick) := by
      refine Pool.disadvantage_eq_ok_iff.mpr
        ⟨List.mem_map_of_mem member, List.forall_mem_map.mpr ?_⟩
      exact fun result above => mono pick member result above (bound result above)
    exact ⟨value pick, applied pick member, .worst kind worst⟩

end Flag

variable {σ : Type} [Source σ]

/-- Every term rolls some dice, and a flag takes one of their results. -/
theorem Dice.Rolls.flagged {term : Dice} {flag : Flag} {session after : Session σ} {rolled : Rolled}
    (kind : flag.kind = .advantage ∨ flag.kind = .disadvantage)
    (rolls : term.Rolls session rolled after) :
    ∃ outcome flaggedAfter,
      (Expr.flagged (.dice term) flag).Rolls session outcome flaggedAfter ∧
        after.Alike flaggedAfter ∧ flag.Picks rolled.results outcome.total := by
  obtain ⟨same, length, _⟩ := rolls.consistent
  have nonempty : rolled.results ≠ [] :=
    List.ne_nil_of_length_pos (length ▸ rolled.dice.rolls.pos)
  obtain ⟨pick, picks⟩ := Flag.exists_picks kind nonempty
  have evaluates : (Operator.ofFlag flag (.dice rolled)).evaluate = .ok (.number pick) :=
    (Flag.evaluate_eq_ok_iff_picks kind fun _ => rfl).mpr ⟨pick, picks, rfl⟩
  have flagged := Expr.Rolls.flagged (.dice rolls) rfl evaluates rfl (.number pick)
  exact ⟨_, _, flagged, .of_record after _, picks⟩

/-- With a flag at the dice term that a chain of arithmetic begins with, the chain comes to the
result that the flag takes from the pool of the chain. -/
theorem Expr.Rolls.flag_first {term : Dice} {links : List Link} {flag : Flag}
    {session after : Session σ} {outcome : Outcome} {choices : Pool}
    (kind : flag.kind = .advantage ∨ flag.kind = .disadvantage)
    (rolls : (links.foldl Link.attach (.dice term)).Rolls session outcome after)
    (nonneg : ∀ operand ∈ outcome.trailing, 0 ≤ operand.total.val)
    (isPool : outcome.pool = .ok choices) :
    ∃ early earlyAfter,
      (links.foldl Link.attach (.flagged (.dice term) flag)).Rolls session early earlyAfter ∧
        after.Alike earlyAfter ∧ flag.Picks choices early.total := by
  -- the last link is the root of the tree
  induction links using List.reverseRecOn generalizing outcome after choices with
  | nil =>
    cases rolls with
    | dice rolls =>
      cases isPool
      exact rolls.flagged kind
  | append_singleton links link ih =>
    simp only [List.foldl_append, List.foldl_cons, List.foldl_nil, Link.attach] at rolls ⊢
    cases rolls with
    | @binary _ _ _ first second _ _ _ _ leftRolls rightRolls applies =>
      obtain ⟨results, leftPool, changes⟩ := RollError.bind_eq_ok_iff.mp isPool
      have right : 0 ≤ second.total.val :=
        nonneg second (List.mem_append_right _ (List.mem_singleton_self second))
      have left : ∀ operand ∈ first.trailing, 0 ≤ operand.total.val :=
        fun operand member => nonneg operand (List.mem_append_left _ member)
      obtain ⟨early, between, earlyRolls, alike, picks⟩ := ih leftRolls left leftPool
      obtain ⟨earlyAfter, earlyRight, next⟩ := rightRolls.alike alike
      obtain ⟨total, earlyApplies, picks⟩ := picks.apply right changes
      exact ⟨_, _, .binary earlyRolls earlyRight earlyApplies, next.record _ _, picks⟩

namespace Expression

/-- A group that begins with a dice term and goes on with arithmetic is flagged for its best or its
worst result, and no right operand comes to less than zero. Then the flag may as well stand at the
dice term, without the group: that succeeds from the same state of the session, asks for the same
faces in the same order and has the same total. -/
theorem roll_group_flag {text otherText inner : String} {term : Dice} {links : List Link}
    {flag : Flag} {session after : Session σ} {roll : Roll}
    (kind : flag.kind = .advantage ∨ flag.kind = .disadvantage)
    (done : Expression.roll
      ⟨text, .flagged (.group inner (links.foldl Link.attach (.dice term))) flag⟩ session =
        .ok roll after)
    (nonneg : ∀ operand ∈ roll.outcome.trailing, 0 ≤ operand.total.val) :
    ∃ other otherAfter,
      Expression.roll ⟨otherText, links.foldl Link.attach (.flagged (.dice term) flag)⟩ session =
        .ok other otherAfter ∧
      other.total = roll.total ∧
      ∃ requests faces, session.Draws requests faces after ∧
        session.Draws requests faces otherAfter := by
  obtain ⟨_, rolls⟩ := roll_eq_ok_iff.mp done
  have draws := rolls.draws.of_counted
  obtain ⟨rollText, outcome⟩ := roll
  cases rolls with
  | flagged groupRolls isOperand evaluates isPool selects =>
    cases groupRolls with
    | group chainRolls =>
      have anyUser := Outcome.toPool_of_poolOperand isOperand isPool
      obtain ⟨pick, picks, rfl⟩ := (Flag.evaluate_eq_ok_iff_picks kind anyUser).mp evaluates
      obtain ⟨early, earlyAfter, earlyRolls, alike, earlyPicks⟩ :=
        chainRolls.flag_first kind nonneg isPool
      have same : early.total = pick := earlyPicks.unique picks
      have terms : (links.foldl Link.attach (.flagged (.dice term) flag)).terms =
          (links.foldl Link.attach (.dice term)).terms := by
        rw [Link.terms_foldl_attach, Link.terms_foldl_attach]
        rfl
      have earlyDraws := earlyRolls.draws.of_counted
      rw [terms] at earlyDraws
      refine ⟨⟨otherText, early⟩, earlyAfter, roll_eq_ok_iff.mpr ⟨rfl, earlyRolls⟩, ?_, ?_⟩
      · rw [selects.of_number.2]
        exact same
      · exact ⟨_, _, draws, draws.eq_of_requests earlyDraws ▸ earlyDraws⟩

/-- Of a six and a two, each less four, the worse one is one; and the two less four is one. -/
theorem roll_group_flag_floored :
    let die : Sides := .numbered ⟨6, by decide, by decide⟩
    let term : Dice := ⟨⟨2, by decide, by decide⟩, die⟩
    let link : Link :=
      ⟨⟨[], .minus, ['-']⟩, .subtract, [⟨[], .integer, ['4']⟩], .int ⟨4, by decide⟩⟩
    let flag : Flag := ⟨.dis, none⟩
    let grouped : Expression := ⟨"(2d6-4)!dis",
      .flagged (.group "2d6-4" ([link].foldl Link.attach (.dice term))) flag⟩
    let early : Expression := ⟨"2d6!dis-4",
      [link].foldl Link.attach (.flagged (.dice term) flag)⟩
    let faces (index : Nat) : Score := if index = 0 then ⟨6, by decide⟩ else ⟨2, by decide⟩
    let session := Session.start none (Loaded.sequence faces 0)
    parse "(2d6-4)!dis" = .ok grouped ∧ parse "2d6!dis-4" = .ok early ∧
      ∃ roll after, grouped.roll session = .ok roll after ∧ roll.total.val = 1 ∧
        (∀ operand ∈ roll.outcome.trailing, 0 ≤ operand.total.val) ∧
        ∃ other otherAfter, early.roll session = .ok other otherAfter ∧ other.total = roll.total ∧
          ∃ requests faces, session.Draws requests faces after ∧
            session.Draws requests faces otherAfter := by
  intro die term link flag grouped early faces session
  have parsed : parse "(2d6-4)!dis" = .ok grouped := by decide +kernel
  have earlyParsed : parse "2d6!dis-4" = .ok early := by decide +kernel
  cases done : grouped.roll session with
  | ok roll after =>
    have total : roll.total.val = 1 := by
      cases done
      rfl
    have nonneg : ∀ operand ∈ roll.outcome.trailing, 0 ≤ operand.total.val := by
      cases done
      decide
    exact ⟨parsed, earlyParsed, roll, after, rfl, total, nonneg,
      roll_group_flag (.inr rfl) done nonneg⟩
  | error error after => cases done

end Expression

end Tabletop
