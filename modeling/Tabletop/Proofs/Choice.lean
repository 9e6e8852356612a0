import Tabletop.Proofs.Refusals
import Tabletop.Proofs.Selection

/-!
# What flags choose

A flag behind a target that has results either comes to what it chooses from them, or overflows
because its choice has no score for a sum. It does nothing else in the session than to record its
choice. So flags that choose the same can stand for each other: the best result is the only one that
is kept, and to keep some results is to drop the others.
-/

namespace Tabletop

variable {flag : Flag} {choices selected : Pool} {operand : Operand}

/-! ## Choices from a pool -/

namespace Pool

/-- A single result is a sum within the range. -/
theorem total_singleton (result : Score) : Pool.total [result] = .ok result := by
  have sum : Score.narrow (Score.zero.val + result.val) = .ok result :=
    Score.narrow_eq_ok_iff.mpr (Int.zero_add result.val).symm
  rw [Pool.total, List.foldlM_cons, sum]
  rfl

/-- The one result that is kept of a pool is its best. -/
theorem keep_one {best : Score} (member : best ∈ choices)
    (bound : ∀ result ∈ choices, result ≤ best) : choices.keep .one = [best] := by
  have kept := choices.highest_keep .one
  have single : (choices.keep .one).length = 1 := by
    have positive := List.length_pos_of_mem member
    have amount : Score.one.val.toNat = 1 := rfl
    rw [keep_eq_discard, length_discard, amount]
    omega
  obtain ⟨only, isOnly⟩ := List.length_eq_one_iff.mp single
  rw [isOnly] at kept ⊢
  have above : best ≤ only := by
    by_cases same : best = only
    · exact le_of_eq same
    · refine kept.out_le best ?_ only (List.mem_singleton_self only)
      rw [Multiset.coe_sub, Multiset.mem_coe]
      exact List.mem_diff_of_mem member fun inside => same (List.eq_of_mem_singleton inside)
  have below : only ≤ best := bound only (kept.sublist.subset (List.mem_singleton_self only))
  rw [le_antisymm below above]

end Pool

namespace Flag

/-- The flag takes the best result of its target, or keeps one of them. -/
def TakesBest (flag : Flag) : Prop :=
  flag.kind = .advantage ∨ flag.kind = .keep ∧ flag.amount = .one

/-- Of `number` results the flag keeps `kept`, or drops all but `kept`. -/
def Leaves (flag : Flag) (number : Nat) (kept : Score) : Prop :=
  flag.kind = .keep ∧ flag.amount = kept ∨
    flag.kind = .drop ∧ flag.amount.val = number - kept.val

theorem TakesBest.chooses {best : Score} (takes : flag.TakesBest) (member : best ∈ choices)
    (bound : ∀ result ∈ choices, result ≤ best) : flag.Chooses choices [best] := by
  unfold Chooses
  rcases takes with kind | ⟨kind, one⟩
  · rw [kind]
    exact ⟨best, rfl, member, bound⟩
  · rw [kind]
    change [best] = choices.keep flag.amount
    rw [one, Pool.keep_one member bound]

theorem Leaves.chooses {kept : Score} (leaves : flag.Leaves choices.length kept)
    (nonneg : 0 ≤ kept.val) (within : kept.val ≤ choices.length) :
    flag.Chooses choices (choices.keep kept) := by
  unfold Chooses
  rcases leaves with ⟨kind, amount⟩ | ⟨kind, amount⟩
  · rw [kind]
    exact congrArg choices.keep amount.symm
  · rw [kind]
    exact Pool.keep_eq_drop nonneg within amount

/-- The operator of a flag gives what the flag chooses. -/
theorem evaluate_of_chooses (isPool : ∀ user, operand.toPool user = .ok choices)
    (chooses : flag.Chooses choices selected) :
    (∃ pick, selected = [pick] ∧ (Operator.ofFlag flag operand).evaluate = .ok (.number pick)) ∨
      (Operator.ofFlag flag operand).evaluate = .ok (.pool selected) := by
  unfold Chooses at chooses
  unfold Operator.ofFlag
  cases kind : flag.kind with
  | advantage =>
    simp only [kind] at chooses
    obtain ⟨best, rfl, isBest⟩ := chooses
    refine .inl ⟨best, rfl, ?_⟩
    simp only [Operator.evaluate, isPool, RollError.bind_eq_ok_iff]
    exact ⟨choices, rfl, best, Pool.advantage_eq_ok_iff.mpr isBest, rfl⟩
  | disadvantage =>
    simp only [kind] at chooses
    obtain ⟨worst, rfl, isWorst⟩ := chooses
    refine .inl ⟨worst, rfl, ?_⟩
    simp only [Operator.evaluate, isPool, RollError.bind_eq_ok_iff]
    exact ⟨choices, rfl, worst, Pool.disadvantage_eq_ok_iff.mpr isWorst, rfl⟩
  | keep | drop =>
    simp only [kind] at chooses
    rw [chooses]
    refine .inr ?_
    simp only [Operator.evaluate, isPool, RollError.bind_eq_ok_iff]
    exact ⟨choices, rfl, flag.amount, rfl, rfl⟩
  | grow | shrink | reroll => simp only [kind] at chooses

end Flag

/-! ## Choices of a roll -/

namespace Expr.Rolls

variable {σ : Type} [Source σ] {target : Expr} {session after : Session σ} {inner : Outcome}

/-- Behind a target that has results, a flag comes to what it chooses from them. -/
theorem flagged_of_chooses {total : Score} (rolls : target.Rolls session inner after)
    (isPool : inner.pool = .ok choices) (chooses : flag.Chooses choices selected)
    (sum : selected.total = .ok total) :
    ∃ step, (Expr.flagged target flag).Rolls session (.flagged inner flag choices selected total)
      (after.record (.step step)) := by
  obtain ⟨operand, isOperand, gives⟩ := Outcome.exists_poolOperand_of_pool isPool
  obtain ⟨pick, rfl, evaluates⟩ | evaluates := Flag.evaluate_of_chooses gives chooses
  · cases sum.symm.trans (Pool.total_singleton pick)
    exact ⟨_, .flagged rolls isOperand evaluates isPool (.number total)⟩
  · exact ⟨_, .flagged rolls isOperand evaluates isPool (.pool rfl sum)⟩

/-- A flag whose choice has no score for a sum overflows. -/
theorem flagged_fails_of_chooses {error : RollError} (rolls : target.Rolls session inner after)
    (isPool : inner.pool = .ok choices) (chooses : flag.Chooses choices selected)
    (unsummed : selected.total = .error error) :
    ∃ step, (Expr.flagged target flag).Fails session .overflow (after.record (.step step)) := by
  obtain ⟨operand, isOperand, gives⟩ := Outcome.exists_poolOperand_of_pool isPool
  cases Pool.eq_overflow_of_total unsummed
  obtain ⟨pick, rfl, _⟩ | evaluates := Flag.evaluate_of_chooses gives chooses
  · cases unsummed.symm.trans (Pool.total_singleton pick)
  · exact ⟨_, .selection rolls isOperand evaluates rfl unsummed⟩

end Expr.Rolls

namespace Expression

variable {σ : Type} [Source σ]

/-- A target that has results is rolled, from any source, under any limit and in any state of the
session; and then, from the same state, with flags behind it. All flags that take the best result or
keep one come to the best of these results, and a flag that takes the worst result to the worst. All
flags that leave the same number of results come to the same results with the same total, or all of
them overflow. The session ends as it does without the flag, except that a choice is recorded. -/
theorem roll_flags_agree {text : String} (otherText : String) {target : Expr}
    {session after : Session σ} {roll : Roll} {choices : Pool}
    (done : Expression.roll ⟨text, target⟩ session = .ok roll after)
    (isPool : roll.pool = .ok choices) (nonempty : choices ≠ []) :
    (∃ best, (best ∈ choices ∧ ∀ result ∈ choices, result ≤ best) ∧
      ∀ flag : Flag, flag.TakesBest → ∃ step,
        Expression.roll ⟨otherText, .flagged target flag⟩ session =
          .ok ⟨otherText, .flagged roll.outcome flag choices [best] best⟩
            (after.record (.step step))) ∧
    (∃ worst, (worst ∈ choices ∧ ∀ result ∈ choices, worst ≤ result) ∧
      ∀ flag : Flag, flag.kind = .disadvantage → ∃ step,
        Expression.roll ⟨otherText, .flagged target flag⟩ session =
          .ok ⟨otherText, .flagged roll.outcome flag choices [worst] worst⟩
            (after.record (.step step))) ∧
    ∀ kept : Score, 0 ≤ kept.val → kept.val ≤ choices.length →
      (∃ selected total, ∀ flag : Flag, flag.Leaves choices.length kept → ∃ step,
        Expression.roll ⟨otherText, .flagged target flag⟩ session =
          .ok ⟨otherText, .flagged roll.outcome flag choices selected total⟩
            (after.record (.step step))) ∨
      ∀ flag : Flag, flag.Leaves choices.length kept → ∃ step,
        Expression.roll ⟨otherText, .flagged target flag⟩ session =
          .error .overflow (after.record (.step step)) := by
  obtain ⟨_, rolls⟩ := roll_eq_ok_iff.mp done
  have comes {flag : Flag} {selected : Pool} {total : Score}
      (chooses : flag.Chooses choices selected) (sum : selected.total = .ok total) : ∃ step,
      Expression.roll ⟨otherText, .flagged target flag⟩ session =
        .ok ⟨otherText, .flagged roll.outcome flag choices selected total⟩
          (after.record (.step step)) := by
    obtain ⟨step, flagged⟩ := rolls.flagged_of_chooses isPool chooses sum
    exact ⟨step, roll_eq_ok_iff.mpr ⟨rfl, flagged⟩⟩
  refine ⟨?_, ?_, fun kept nonneg within => ?_⟩
  · obtain ⟨best, found⟩ := Option.isSome_iff_exists.mp (List.isSome_max?_of_ne_nil nonempty)
    have isBest := List.max?_eq_some_iff.mp found
    exact ⟨best, isBest, fun flag takes =>
      comes (takes.chooses isBest.1 isBest.2) (Pool.total_singleton best)⟩
  · obtain ⟨worst, found⟩ := Option.isSome_iff_exists.mp (List.isSome_min?_of_ne_nil nonempty)
    have isWorst := List.min?_eq_some_iff.mp found
    refine ⟨worst, isWorst, fun flag kind => comes ?_ (Pool.total_singleton worst)⟩
    unfold Flag.Chooses
    rw [kind]
    exact ⟨worst, rfl, isWorst⟩
  · cases sum : Pool.total (choices.keep kept) with
    | ok total =>
      exact .inl ⟨_, total, fun flag leaves => comes (leaves.chooses nonneg within) sum⟩
    | error error =>
      refine .inr fun flag leaves => ?_
      obtain ⟨step, fails⟩ :=
        rolls.flagged_fails_of_chooses isPool (leaves.chooses nonneg within) sum
      exact ⟨step, roll_eq_error_iff.mpr fails⟩

/-- Of three dice less two, the results are one, three and three. The best of them is three,
whatever flag takes it, and to keep two is to drop one. -/
theorem roll_flags_agree_grouped :
    let one : Score := ⟨1, by decide⟩
    let two : Score := ⟨2, by decide⟩
    let three : Score := ⟨3, by decide⟩
    let five : Score := ⟨5, by decide⟩
    let die : Sides := .numbered ⟨6, by decide, by decide⟩
    let term : Dice := ⟨⟨3, by decide, by decide⟩, die⟩
    let target : Expr := .group "3d6-2" (.binary .subtract (.dice term) (.int two))
    let session := Session.start none (Loaded.sequence ([two, five, five].getD · one) 0)
    parse "(3d6-2)" = .ok ⟨"(3d6-2)", target⟩ ∧ ∃ roll after,
      Expression.roll ⟨"(3d6-2)", target⟩ session = .ok roll after ∧
      roll.pool = .ok [one, three, three] ∧ [one, three, three] ≠ [] ∧
      (∃ best, ∀ flag ∈ ([⟨.adv, none⟩, ⟨.advantage, none⟩, ⟨.keep, none⟩, ⟨.take, none⟩,
          ⟨.keep, some one⟩] : List Flag), ∃ step,
        Expression.roll ⟨"", .flagged target flag⟩ session =
          .ok ⟨"", .flagged roll.outcome flag [one, three, three] [best] best⟩
            (after.record (.step step))) ∧
      ∃ selected total, ∀ flag ∈ ([⟨.keep, some two⟩, ⟨.take, some two⟩, ⟨.drop, some one⟩] :
          List Flag), ∃ step,
        Expression.roll ⟨"", .flagged target flag⟩ session =
          .ok ⟨"", .flagged roll.outcome flag [one, three, three] selected total⟩
            (after.record (.step step)) := by
  intro one two three five die term target session
  have parsed : parse "(3d6-2)" = .ok ⟨"(3d6-2)", target⟩ := by decide +kernel
  have nonempty : [one, three, three] ≠ [] := nofun
  obtain ⟨roll, after, done, isPool⟩ : ∃ roll after,
      Expression.roll ⟨"(3d6-2)", target⟩ session = .ok roll after ∧
        roll.pool = .ok [one, three, three] := ⟨_, _, rfl, rfl⟩
  obtain ⟨⟨best, _, takes⟩, _, leaves⟩ := roll_flags_agree "" done isPool nonempty
  refine ⟨parsed, roll, after, done, isPool, nonempty, ⟨best, fun flag member => takes flag ?_⟩, ?_⟩
  · simp only [List.mem_cons, List.not_mem_nil, or_false] at member
    rcases member with rfl | rfl | rfl | rfl | rfl
    · exact .inl rfl
    · exact .inl rfl
    all_goals exact .inr ⟨rfl, rfl⟩
  · have isLeft : ∀ flag ∈ ([⟨.keep, some two⟩, ⟨.take, some two⟩, ⟨.drop, some one⟩] : List Flag),
        flag.Leaves 3 two := by
      intro flag member
      simp only [List.mem_cons, List.not_mem_nil, or_false] at member
      rcases member with rfl | rfl | rfl
      · exact .inl ⟨rfl, rfl⟩
      · exact .inl ⟨rfl, rfl⟩
      · exact .inr ⟨rfl, rfl⟩
    rcases leaves two (by decide) (by decide) with ⟨selected, total, comes⟩ | overflows
    · exact ⟨selected, total, fun flag member => comes flag (isLeft flag member)⟩
    · obtain ⟨step, refused⟩ := overflows ⟨.keep, some two⟩ (.inl ⟨rfl, rfl⟩)
      cases refused

end Expression

end Tabletop
