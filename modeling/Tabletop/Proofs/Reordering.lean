import Tabletop.Proofs.Consistency
import Tabletop.Proofs.Draws

/-!
# Dice in another order

The dice of one term may come up in another order. Flags choose by value and not by place, and
arithmetic is done with each result on its own, so that every pool holds the same results as before,
in whatever order. Every total stays what it was.
-/

namespace Tabletop

/-- Both pools exist and hold the same results, or neither exists. -/
def Pool.Matches : Except RollError Pool → Except RollError Pool → Prop
  | .ok results, .ok others => results.Perm others
  | .error _, .error _ => True
  | _, _ => False

/-- The nodes are outcomes of the same tree, with the same total and with pools that match. -/
structure Outcome.Agrees (outcome other : Outcome) : Prop where
  shape : outcome.toExpr = other.toExpr
  total_eq : outcome.total = other.total
  pool : Pool.Matches outcome.pool other.pool

/-- Each of the terms has got the same faces from both pools, in whatever order. -/
inductive Dice.Reordered : List Dice → Pool → Pool → Prop where
  | nil : Reordered [] [] []
  | cons {term : Dice} {terms : List Dice} {faces others rest more : Pool}
      (length : faces.length = term.rolls.val) (perm : faces.Perm others)
      (later : Reordered terms rest more) :
      Reordered (term :: terms) (faces ++ rest) (others ++ more)

/-! ## Faces -/

namespace Dice.Reordered

variable {first second : List Dice} {faces others rest more : Pool}

theorem length_eq (reordered : Reordered first faces others) :
    faces.length = number first ∧ others.length = number first := by
  induction reordered with
  | nil => exact ⟨rfl, rfl⟩
  | cons length perm _ ih =>
    rw [List.length_append, List.length_append, number_cons, ← perm.length_eq, length, ih.1, ih.2]
    exact ⟨rfl, rfl⟩

theorem refl (length : faces.length = number first) : Reordered first faces faces := by
  induction first generalizing faces with
  | nil =>
    cases List.length_eq_zero_iff.mp length
    exact .nil
  | cons term first ih =>
    rw [number_cons] at length
    have taken : (faces.take term.rolls.val).length = term.rolls.val := by
      rw [List.length_take]
      omega
    have later := @ih (List.drop term.rolls.val faces) (by rw [List.length_drop]; omega)
    rw [← List.take_append_drop term.rolls.val faces]
    exact .cons taken (.refl _) later

theorem append (head : Reordered first faces others) (tail : Reordered second rest more) :
    Reordered (first ++ second) (faces ++ rest) (others ++ more) := by
  induction head with
  | nil => exact tail
  | cons length perm _ ih =>
    rw [List.append_assoc, List.append_assoc]
    exact .cons length perm ih

/-- All faces together are the same. -/
theorem perm (reordered : Reordered first faces others) : faces.Perm others := by
  induction reordered with
  | nil => exact .refl []
  | cons _ perm _ ih => exact perm.append ih

/-- The faces are divided between the first terms and the later ones. -/
theorem split (reordered : Reordered (first ++ second) faces others) :
    ∃ left right otherLeft otherRight, faces = left ++ right ∧ others = otherLeft ++ otherRight ∧
      Reordered first left otherLeft ∧ Reordered second right otherRight := by
  induction first generalizing faces others with
  | nil => exact ⟨[], faces, [], others, rfl, rfl, .nil, reordered⟩
  | cons term first ih =>
    cases reordered with
    | @cons _ _ faces others _ _ length perm later =>
      obtain ⟨left, right, otherLeft, otherRight, rfl, rfl, head, tail⟩ := ih later
      exact ⟨faces ++ left, right, others ++ otherLeft, otherRight, (List.append_assoc ..).symm,
        (List.append_assoc ..).symm, .cons length perm head, tail⟩

/-- Faces that are divided already are divided in the same way. -/
theorem of_append (reordered : Reordered (first ++ second) (faces ++ rest) (others ++ more))
    (length : faces.length = number first) (otherLength : others.length = number first) :
    Reordered first faces others ∧ Reordered second rest more := by
  obtain ⟨left, right, otherLeft, otherRight, whole, otherWhole, head, tail⟩ := reordered.split
  obtain ⟨rfl, rfl⟩ := List.append_inj whole (length.trans head.length_eq.1.symm)
  obtain ⟨rfl, rfl⟩ := List.append_inj otherWhole (otherLength.trans head.length_eq.2.symm)
  exact ⟨head, tail⟩

end Dice.Reordered

/-! ## Pools -/

namespace Pool

variable {pool other : Pool}

theorem Matches.trans {first second third : Except RollError Pool} (left : Matches first second)
    (right : Matches second third) : Matches first third := by
  cases first with
  | error fault =>
    cases second with
    | error _ => cases third with
      | error _ => trivial
      | ok _ => exact right.elim
    | ok _ => exact left.elim
  | ok results =>
    cases second with
    | error _ => exact left.elim
    | ok others =>
      cases third with
      | error _ => exact right.elim
      | ok more => exact List.Perm.trans left right

/-- Where each result is changed on its own, the order does not matter. -/
theorem Matches.mapM (perm : pool.Perm other) (change : Score → Except RollError Score) :
    Matches (pool.mapM change) (other.mapM change) := by
  induction perm with
  | nil => exact .refl []
  | @cons result left right _ ih =>
    rw [List.mapM_cons, List.mapM_cons]
    cases change result with
    | error fault => trivial
    | ok changed =>
      cases first : left.mapM change <;> cases second : right.mapM change <;>
        rw [first, second] at ih
      · trivial
      · exact ih
      · exact ih
      · exact ih.cons changed
  | swap left right rest =>
    simp only [List.mapM_cons]
    cases change left <;> cases change right <;> cases rest.mapM change <;>
      first | trivial | exact .swap _ _ _
  | trans _ _ firstIh secondIh => exact firstIh.trans secondIh

theorem Matches.bind_mapM {first second : Except RollError Pool} (matching : Matches first second)
    (change : Score → Except RollError Score) :
    Matches (first >>= (·.mapM change)) (second >>= (·.mapM change)) := by
  cases first with
  | error fault =>
    cases second with
    | error _ => trivial
    | ok _ => exact matching.elim
  | ok results =>
    cases second with
    | error _ => exact matching.elim
    | ok others => exact Matches.mapM matching change

theorem sum_perm (perm : pool.Perm other) : pool.sum = other.sum :=
  (perm.map Score.val).sum_eq

theorem min?_perm (perm : pool.Perm other) : pool.min? = other.min? := by
  cases least : other.min? with
  | none =>
    rw [List.min?_eq_none_iff] at least ⊢
    exact (least ▸ perm).eq_nil
  | some score =>
    rw [List.min?_eq_some_iff] at least ⊢
    exact ⟨perm.mem_iff.mpr least.1, fun result member => least.2 result (perm.mem_iff.mp member)⟩

theorem discardLeast_perm (perm : pool.Perm other) :
    pool.discardLeast.Perm other.discardLeast := by
  unfold discardLeast
  rw [min?_perm perm]
  cases other.min? with
  | none => exact .refl []
  | some least => exact perm.erase least

theorem discard_perm (perm : pool.Perm other) (n : Nat) :
    (pool.discard n).Perm (other.discard n) := by
  induction n generalizing pool other with
  | zero => exact perm
  | succ n ih => exact ih (discardLeast_perm perm)

theorem keep_perm (perm : pool.Perm other) (count : Score) :
    (pool.keep count).Perm (other.keep count) := by
  unfold keep
  rw [perm.length_eq]
  split
  · exact .refl []
  · exact discard_perm perm _

theorem drop_perm (perm : pool.Perm other) (count : Score) :
    (pool.drop count).Perm (other.drop count) := by
  unfold drop
  rw [perm.length_eq]
  split
  · exact .refl []
  · exact discard_perm perm _

end Pool

/-- A flag chooses the same results from pools that hold the same. -/
theorem Flag.Chooses.perm {flag : Flag} {choices others selected otherSelected : Pool}
    (chooses : flag.Chooses choices selected) (otherChooses : flag.Chooses others otherSelected)
    (perm : choices.Perm others) : selected.Perm otherSelected := by
  unfold Flag.Chooses at chooses otherChooses
  cases kind : flag.kind with
  | advantage =>
    simp only [kind] at chooses otherChooses
    obtain ⟨best, rfl, member, bound⟩ := chooses
    obtain ⟨otherBest, rfl, otherMember, otherBound⟩ := otherChooses
    have same : best = otherBest := le_antisymm (otherBound best (perm.mem_iff.mp member))
      (bound otherBest (perm.mem_iff.mpr otherMember))
    rw [same]
  | disadvantage =>
    simp only [kind] at chooses otherChooses
    obtain ⟨worst, rfl, member, bound⟩ := chooses
    obtain ⟨otherWorst, rfl, otherMember, otherBound⟩ := otherChooses
    have same : worst = otherWorst := le_antisymm (bound otherWorst (perm.mem_iff.mpr otherMember))
      (otherBound worst (perm.mem_iff.mp member))
    rw [same]
  | keep =>
    simp only [kind] at chooses otherChooses
    subst chooses otherChooses
    exact Pool.keep_perm perm _
  | drop =>
    simp only [kind] at chooses otherChooses
    subst chooses otherChooses
    exact Pool.drop_perm perm _
  | grow | shrink | reroll =>
    simp only [kind] at chooses

/-! ## Trees -/

variable {σ τ : Type} [Source σ] [Source τ]

namespace Outcome.Agrees

theorem group {inner other : Outcome} (agrees : inner.Agrees other) (text : String) :
    (Outcome.group text inner).Agrees (.group text other) :=
  ⟨congrArg (Expr.group text) agrees.shape, agrees.total_eq, agrees.pool⟩

theorem flagged {target other : Outcome} {flag : Flag} {choices selected others more : Pool}
    {total otherTotal : Score} (agrees : target.Agrees other)
    (isPool : target.pool = .ok choices) (otherIsPool : other.pool = .ok others)
    (chooses : flag.Chooses choices selected) (otherChooses : flag.Chooses others more)
    (sum : total.val = selected.sum) (otherSum : otherTotal.val = more.sum) :
    (Outcome.flagged target flag choices selected total).Agrees
      (.flagged other flag others more otherTotal) := by
  have matching := agrees.pool
  rw [isPool, otherIsPool] at matching
  have perm : selected.Perm more := chooses.perm otherChooses matching
  have same : total.val = otherTotal.val := by
    rw [sum, otherSum, Pool.sum_perm perm]
  exact ⟨congrArg (Expr.flagged · flag) agrees.shape, Score.ext same, perm⟩

theorem binary {op : BinaryOp} {left right otherLeft otherRight : Outcome}
    {total otherTotal : Score} (leftAgrees : left.Agrees otherLeft)
    (rightAgrees : right.Agrees otherRight) (applies : op.apply left.total right.total = .ok total)
    (otherApplies : op.apply otherLeft.total otherRight.total = .ok otherTotal) :
    (Outcome.binary op left right total).Agrees (.binary op otherLeft otherRight otherTotal) := by
  rw [← leftAgrees.total_eq, ← rightAgrees.total_eq] at otherApplies
  refine ⟨congrArg₂ (Expr.binary op) leftAgrees.shape rightAgrees.shape,
    Except.ok.inj (applies.symm.trans otherApplies), ?_⟩
  unfold Outcome.pool
  rw [← rightAgrees.total_eq]
  exact leftAgrees.pool.bind_mapM _

end Outcome.Agrees

/-- All nodes of two outcomes of a tree agree if its terms have got the same faces in whatever
order. -/
theorem Expr.Rolls.agrees_of_reordered {tree : Expr} {session after : Session σ}
    {other otherAfter : Session τ} {outcome otherOutcome : Outcome}
    (rolls : tree.Rolls session outcome after)
    (otherRolls : tree.Rolls other otherOutcome otherAfter)
    (faces : Dice.Reordered tree.terms outcome.faces otherOutcome.faces) :
    outcome.Agrees otherOutcome ∧
      List.Forall₂ Outcome.Agrees outcome.nodes otherOutcome.nodes := by
  induction tree generalizing session after other otherAfter outcome otherOutcome with
  | int score =>
    cases rolls
    cases otherRolls
    have agrees : (Outcome.literal score).Agrees (.literal score) := ⟨rfl, rfl, trivial⟩
    exact ⟨agrees, .cons agrees .nil⟩
  | dice term =>
    cases rolls with
    | @dice _ rolled _ _ rolls =>
      cases otherRolls with
      | @dice _ otherRolled _ _ otherRolls =>
        have perm : rolled.results.Perm otherRolled.results := faces.perm
        obtain ⟨shape, _, total⟩ := rolls.consistent
        obtain ⟨otherShape, _, otherTotal⟩ := otherRolls.consistent
        have same : rolled.total.val = otherRolled.total.val := by
          rw [total, otherTotal, Pool.sum_perm perm]
        have agrees : (Outcome.dice rolled).Agrees (.dice otherRolled) :=
          ⟨congrArg Expr.dice (shape.trans otherShape.symm), Score.ext same, perm⟩
        exact ⟨agrees, .cons agrees .nil⟩
  | group text body ih =>
    cases rolls with
    | group rolls =>
      cases otherRolls with
      | group otherRolls =>
        obtain ⟨inner, nodes⟩ := ih rolls otherRolls faces
        have agrees := inner.group text
        exact ⟨agrees, List.rel_append nodes (.cons agrees .nil)⟩
  | flagged target flag ih =>
    obtain ⟨inner, choices, selected, total, _, rfl, rolls, isPool, chooses, sum⟩ :=
      rolls.of_flagged
    obtain ⟨otherInner, others, more, otherTotal, _, rfl, otherRolls, otherIsPool, otherChooses,
      otherSum⟩ := otherRolls.of_flagged
    obtain ⟨target, nodes⟩ := ih rolls otherRolls faces
    have agrees := target.flagged isPool otherIsPool chooses otherChooses sum otherSum
    exact ⟨agrees, List.rel_append nodes (.cons agrees .nil)⟩
  | binary op left right leftIh rightIh =>
    cases rolls with
    | binary leftRolls rightRolls applies =>
      cases otherRolls with
      | binary otherLeft otherRight otherApplies =>
        obtain ⟨leftFaces, rightFaces⟩ :=
          faces.of_append leftRolls.length_faces otherLeft.length_faces
        obtain ⟨first, firstNodes⟩ := leftIh leftRolls otherLeft leftFaces
        obtain ⟨second, secondNodes⟩ := rightIh rightRolls otherRight rightFaces
        have agrees := first.binary second applies otherApplies
        exact ⟨agrees, List.rel_append (List.rel_append firstNodes secondNodes)
          (.cons agrees .nil)⟩

namespace Expression

/-- An expression is rolled twice, from any sources, under any limits and in any states of the
sessions. The dice of one of its terms come up in another order the second time, and all other dice
as they did the first time. Then the totals are the same, and so are the totals of all nodes of the
outcomes; of two nodes in the same place both have a pool or neither has, and the pools hold the
same results. -/
theorem roll_reordered {expression : Expression} {session after : Session σ}
    {other otherAfter : Session τ} {roll otherRoll : Roll} {earlier later : List Dice} {term : Dice}
    {requests otherRequests : List Bounds} {before given reordered behind : Pool}
    (terms : expression.root.terms = earlier ++ term :: later)
    (done : expression.roll session = .ok roll after)
    (otherDone : expression.roll other = .ok otherRoll otherAfter)
    (draws : session.Draws requests (before ++ given ++ behind) after)
    (otherDraws : other.Draws otherRequests (before ++ reordered ++ behind) otherAfter)
    (beforeLength : before.length = Dice.number earlier) (length : given.length = term.rolls.val)
    (perm : given.Perm reordered) :
    roll.total = otherRoll.total ∧
      List.Forall₂ Outcome.Agrees roll.outcome.nodes otherRoll.outcome.nodes := by
  obtain ⟨_, rolls⟩ := roll_eq_ok_iff.mp done
  obtain ⟨_, otherRolls⟩ := roll_eq_ok_iff.mp otherDone
  have faces := draws.faces_unique rolls.draws.of_counted
  have otherFaces := otherDraws.faces_unique otherRolls.draws.of_counted
  have behindLength : behind.length = Dice.number later := by
    have whole := rolls.length_faces
    rw [← faces, terms, Dice.number_append, Dice.number_cons, List.length_append,
      List.length_append] at whole
    omega
  have same : Dice.Reordered expression.root.terms roll.outcome.faces otherRoll.outcome.faces := by
    rw [terms, ← faces, ← otherFaces, List.append_assoc, List.append_assoc]
    exact .append (.refl beforeLength) (.cons length perm (.refl behindLength))
  obtain ⟨agrees, nodes⟩ := rolls.agrees_of_reordered otherRolls same
  exact ⟨agrees.total_eq, nodes⟩

/-- Of three dice less two the better two are kept. The lowest one comes up first in one roll and
second in the other, and the results that are kept stand in another order. -/
theorem roll_reordered_kept :
    let four : Tally := ⟨4, by decide, by decide⟩
    let six : Tally := ⟨6, by decide, by decide⟩
    let single : Dice := ⟨.one, .numbered four⟩
    let term : Dice := ⟨⟨3, by decide, by decide⟩, .numbered six⟩
    let one : Score := ⟨1, by decide⟩
    let two : Score := ⟨2, by decide⟩
    let three : Score := ⟨3, by decide⟩
    let five : Score := ⟨5, by decide⟩
    let expression : Expression := ⟨"d4*(3d6-2)!keep(2)", .binary .multiply (.dice single)
      (.flagged (.group "3d6-2" (.binary .subtract (.dice term) (.int two))) ⟨.keep, some two⟩)⟩
    let session := Session.start none (Loaded.sequence ([two, one, five, three].getD · one) 0)
    let other := Session.start none (Loaded.sequence ([two, three, one, five].getD · one) 0)
    parse "d4*(3d6-2)!keep(2)" = .ok expression ∧
      expression.root.terms = [single] ++ term :: [] ∧ [one, five, three].Perm [three, one, five] ∧
      ∃ roll after otherRoll otherAfter, expression.roll session = .ok roll after ∧
        expression.roll other = .ok otherRoll otherAfter ∧ roll.total.val = 8 ∧
        roll.total = otherRoll.total ∧
        List.Forall₂ Outcome.Agrees roll.outcome.nodes otherRoll.outcome.nodes := by
  intro four six single term one two three five expression session other
  have parsed : parse "d4*(3d6-2)!keep(2)" = .ok expression := by decide +kernel
  have terms : expression.root.terms = [single] ++ term :: [] := rfl
  have perm : [one, five, three].Perm [three, one, five] := by decide
  cases done : expression.roll session with
  | ok roll after =>
    cases otherDone : expression.roll other with
    | ok otherRoll otherAfter =>
      have faces : roll.outcome.faces = [two] ++ [one, five, three] ++ [] ∧
          roll.total.val = 8 := by
        cases done
        exact ⟨rfl, rfl⟩
      have otherFaces : otherRoll.outcome.faces = [two] ++ [three, one, five] ++ [] := by
        cases otherDone
        rfl
      have draws := (roll_eq_ok_iff.mp done).2.draws.of_counted
      have otherDraws := (roll_eq_ok_iff.mp otherDone).2.draws.of_counted
      rw [faces.1] at draws
      rw [otherFaces] at otherDraws
      exact ⟨parsed, terms, perm, roll, after, otherRoll, otherAfter, rfl, rfl, faces.2,
        roll_reordered terms done otherDone draws otherDraws rfl rfl perm⟩
    | error error after => cases otherDone
  | error error after => cases done

end Expression

end Tabletop
