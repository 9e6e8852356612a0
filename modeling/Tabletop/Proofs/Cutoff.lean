import Tabletop.Proofs.Trace

/-!
# Rolls under several limits

The limit on dice can end an evaluation and do nothing else. Under a lower limit a tree is rolled,
or fails, as under the higher one, unless the lower limit cuts it short: then the journal has
recorded a first part of what it has recorded under the higher limit.
-/

namespace Tabletop

/-! ## Limits -/

/-- The second limit stops whatever the first one stops. A limit that is absent stops nothing. -/
def Session.Tighter (limit other : Option Nat) : Prop :=
  ∀ highest ∈ limit, ∃ lower ∈ other, lower ≤ highest

/-- The session under another limit. -/
def Session.withLimit {σ : Type} (session : Session σ) (limit : Option Nat) : Session σ :=
  { session with limit }

namespace Session

theorem tighter_none (limit : Option Nat) : Tighter none limit := nofun

theorem tighter_some {lower highest : Nat} (le : lower ≤ highest) :
    Tighter (some highest) (some lower) := by
  rintro _ ⟨⟩
  exact ⟨lower, rfl, le⟩

variable {σ : Type} {session after : Session σ} {limit : Option Nat}

/-- Dice that are too many are too many under a tighter limit. -/
theorem exceeded_withLimit (tighter : Tighter session.limit limit)
    (excess : session.exceeded = true) : (session.withLimit limit).exceeded = true := by
  obtain ⟨highest, limited, above⟩ := (Option.any_eq_true _ _).mp excess
  obtain ⟨lower, lowered, le⟩ := tighter highest limited
  refine (Option.any_eq_true _ _).mpr ⟨lower, lowered, ?_⟩
  rw [decide_eq_true_eq] at above ⊢
  exact Nat.lt_of_le_of_lt le above

variable [Source σ]

theorem draw_withLimit (session : Session σ) (limit : Option Nat) (bounds : Bounds) :
    (session.withLimit limit).draw bounds =
      ((session.draw bounds).1, (session.draw bounds).2.withLimit limit) :=
  rfl

/-- The limit has no part in the faces that are drawn. -/
theorem drawMany_withLimit {bounds : Bounds} {n : Nat} {faces : Pool}
    (drawn : session.drawMany bounds n = (faces, after)) (limit : Option Nat) :
    (session.withLimit limit).drawMany bounds n = (faces, after.withLimit limit) := by
  induction n generalizing session faces with
  | zero =>
    cases drawn
    rfl
  | succ n ih =>
    rw [drawMany_succ] at drawn
    cases drawn
    rw [drawMany_succ, draw_withLimit, ih rfl]
    rfl

/-- What is recorded does not depend on the limits. -/
theorem Adds.withLimit {events : List Event} (adds : session.Adds events after)
    (limit : Option Nat) : (session.withLimit limit).Adds events (after.withLimit limit) :=
  ⟨adds.journal_eq, adds.given⟩

theorem Traces.adds {done : List Outcome} {more : List Event}
    (traces : session.Traces done more after) : ∃ events, session.Adds events after := by
  obtain ⟨_, _, adds⟩ := traces
  exact ⟨_, adds⟩

end Session

open Session (Tighter)

/-! ## Trees that are cut short -/

variable {σ : Type} [Source σ] {session between after : Session σ} {limit : Option Nat}

namespace Expr

/-- Under the limit, the tree fails over too many dice. It has recorded then a first part of what
the session has recorded in the later state. -/
def CutShort (tree : Expr) (session : Session σ) (limit : Option Nat) (after : Session σ) : Prop :=
  ∃ events more cut, tree.Fails (session.withLimit limit) .limitExceeded cut ∧
    (session.withLimit limit).Adds events cut ∧ session.Adds (events ++ more) after

namespace CutShort

variable {tree whole : Expr} {events : List Event}

/-- What cuts a part short cuts the whole short, whatever is recorded after the part. -/
theorem within (cutShort : tree.CutShort session limit between)
    (fails : ∀ cut, tree.Fails (session.withLimit limit) .limitExceeded cut →
      whole.Fails (session.withLimit limit) .limitExceeded cut)
    (later : between.Adds events after) : whole.CutShort session limit after := by
  obtain ⟨first, more, cut, partFails, recorded, all⟩ := cutShort
  refine ⟨first, more ++ events, cut, fails cut partFails, recorded, ?_⟩
  rw [← List.append_assoc]
  exact all.trans later

/-- A part is cut short after another part has been rolled. -/
theorem behind (cutShort : tree.CutShort between limit after)
    (earlier : session.Adds events between)
    (fails : ∀ cut, tree.Fails (between.withLimit limit) .limitExceeded cut →
      whole.Fails (session.withLimit limit) .limitExceeded cut) :
    whole.CutShort session limit after := by
  obtain ⟨second, more, cut, partFails, recorded, all⟩ := cutShort
  refine ⟨events ++ second, more, cut, fails cut partFails, ?_, ?_⟩
  · exact (earlier.withLimit limit).trans recorded
  · rw [List.append_assoc]
    exact earlier.trans all

end CutShort

theorem Rolls.adds {tree : Expr} {outcome : Outcome} (rolls : tree.Rolls session outcome after) :
    ∃ events, session.Adds events after :=
  rolls.traces.adds

theorem Fails.adds {tree : Expr} {error : RollError} (fails : tree.Fails session error after) :
    ∃ events, session.Adds events after := by
  obtain ⟨_, _, _, _, _, traces⟩ := fails.traces
  exact traces.adds

/-- A tree fails over too many dice only if there is a limit. -/
theorem Fails.limited {tree : Expr} (fails : tree.Fails session .limitExceeded after) :
    ∃ limit, session.limit = some limit := by
  obtain ⟨_, _, reached, reaches, excess, _⟩ := fails_limitExceeded_iff.mp fails
  obtain ⟨_, draws⟩ := reaches.draws
  obtain ⟨limit, limited, _⟩ := (Option.any_eq_true _ _).mp excess
  exact ⟨limit, draws.limit_eq.symm.trans limited⟩

/-- A term that has too many dice under the limit is cut short before it draws any. -/
theorem cutShort_dice {term : Dice} {events : List Event}
    (excess : ((session.withLimit limit).count term.rolls.val).exceeded = true)
    (adds : session.Adds events after) : (dice term).CutShort session limit after :=
  ⟨[], events, _, .limit excess, (Session.Adds.refl _).count _, adds⟩

/-- A tree that is rolled is rolled under a tighter limit as well, or cut short by it. -/
theorem Rolls.tighten {tree : Expr} {outcome : Outcome} (rolls : tree.Rolls session outcome after)
    (tighter : Tighter session.limit limit) :
    tree.Rolls (session.withLimit limit) outcome (after.withLimit limit) ∨
      tree.CutShort session limit after := by
  induction rolls with
  | int score session => exact .inl (.int score _)
  | @dice term rolled session after rolls =>
    cases excess : ((session.withLimit limit).count term.rolls.val).exceeded with
    | false =>
      cases rolls with
      | intro within draws sum =>
        exact .inl (.dice (.intro excess (Session.drawMany_withLimit draws limit) sum))
    | true =>
      obtain ⟨_, adds⟩ := (Rolls.dice rolls).adds
      exact .inr (cutShort_dice excess adds)
  | group rolls ih =>
    rcases ih tighter with again | cutShort
    · exact .inl (.group again)
    · exact .inr (cutShort.within (fun _ => .group) (.refl _))
  | flagged rolls isOperand evaluates isPool selects ih =>
    rcases ih tighter with again | cutShort
    · exact .inl (.flagged again isOperand evaluates isPool selects)
    · exact .inr (cutShort.within (fun _ => .target) (.record _ _))
  | binary leftRolls rightRolls applies leftIh rightIh =>
    obtain ⟨_, leftAdds⟩ := leftRolls.adds
    obtain ⟨_, rightAdds⟩ := rightRolls.adds
    rcases leftIh tighter with leftAgain | cutShort
    -- the limit of the session is still the one it began with when the right side is rolled
    · rcases rightIh (leftRolls.draws.limit_eq ▸ tighter) with rightAgain | cutShort
      · exact .inl (.binary leftAgain rightAgain applies)
      · exact .inr ((cutShort.behind leftAdds fun _ => .right leftAgain).within
          (fun _ fails => fails) (.record _ _))
    · exact .inr (cutShort.within (fun _ => .left) (rightAdds.trans (.record _ _)))

/-- A tree that fails fails in the same way under a tighter limit, or is cut short by it. -/
theorem Fails.tighten {tree : Expr} {error : RollError} (fails : tree.Fails session error after)
    (tighter : Tighter session.limit limit) :
    tree.Fails (session.withLimit limit) error (after.withLimit limit) ∨
      tree.CutShort session limit after := by
  induction fails with
  | @limit term session excess =>
    have counted : Tighter (session.count term.rolls.val).limit limit := tighter
    exact .inl (.limit (Session.exceeded_withLimit counted excess))
  | @sum term session after results error within draws unsummed =>
    cases excess : ((session.withLimit limit).count term.rolls.val).exceeded with
    | false => exact .inl (.sum excess (Session.drawMany_withLimit draws limit) unsummed)
    -- the dice are counted before any is drawn, so the limit comes before the overflow
    | true => exact .inr (cutShort_dice excess (Session.Adds.drawMany draws).of_counted)
  | group fails ih =>
    rcases ih tighter with again | cutShort
    · exact .inl (.group again)
    · exact .inr (cutShort.within (fun _ => .group) (.refl _))
  | target fails ih =>
    rcases ih tighter with again | cutShort
    · exact .inl (.target again)
    · exact .inr (cutShort.within (fun _ => .target) (.refl _))
  | operand rolls noOperand =>
    rcases rolls.tighten tighter with again | cutShort
    · exact .inl (.operand again noOperand)
    · exact .inr (cutShort.within (fun _ => .target) (.refl _))
  | choice rolls isOperand refuses =>
    rcases rolls.tighten tighter with again | cutShort
    · exact .inl (.choice again isOperand refuses)
    · exact .inr (cutShort.within (fun _ => .target) (.refl _))
  | selection rolls isOperand evaluates isPool unsummed =>
    rcases rolls.tighten tighter with again | cutShort
    · exact .inl (.selection again isOperand evaluates isPool unsummed)
    · exact .inr (cutShort.within (fun _ => .target) (.record _ _))
  | left fails ih =>
    rcases ih tighter with again | cutShort
    · exact .inl (.left again)
    · exact .inr (cutShort.within (fun _ => .left) (.refl _))
  | right rolls fails ih =>
    obtain ⟨_, leftAdds⟩ := rolls.adds
    obtain ⟨_, rightAdds⟩ := fails.adds
    rcases rolls.tighten tighter with leftAgain | cutShort
    · rcases ih (rolls.draws.limit_eq ▸ tighter) with rightAgain | cutShort
      · exact .inl (.right leftAgain rightAgain)
      · exact .inr (cutShort.behind leftAdds fun _ => .right leftAgain)
    · exact .inr (cutShort.within (fun _ => .left) rightAdds)
  | operator leftRolls rightRolls refuses =>
    obtain ⟨_, leftAdds⟩ := leftRolls.adds
    obtain ⟨_, rightAdds⟩ := rightRolls.adds
    rcases leftRolls.tighten tighter with leftAgain | cutShort
    · rcases rightRolls.tighten (leftRolls.draws.limit_eq ▸ tighter) with rightAgain | cutShort
      · exact .inl (.operator leftAgain rightAgain refuses)
      · exact .inr (cutShort.behind leftAdds fun _ => .right leftAgain)
    · exact .inr (cutShort.within (fun _ => .left) rightAdds)

end Expr

/-! ## Evaluations -/

namespace Expression

/-- An evaluation under a limit gives the outcome, or fails over the error, that it does without any
limit, and leaves the same source and the same journal. Otherwise it fails over too many dice, and
what it has drawn and recorded until then is a first part of what is drawn and recorded without the
limit. Without a limit no evaluation fails over too many dice, and one that does so under some limit
does so under each lower limit. -/
theorem roll_limited (expression : Expression) (session : Session σ) (limit : Nat) :
    let free := session.withLimit none
    let bounded := session.withLimit (some limit)
    (∃ full,
      (∃ roll, expression.roll free = .ok roll full ∧
        expression.roll bounded = .ok roll (full.withLimit (some limit))) ∨
      (∃ error, expression.roll free = .error error full ∧
        expression.roll bounded = .error error (full.withLimit (some limit))) ∨
      expression.roll.Leaves free full ∧
        ∃ events more cut, expression.roll bounded = .error .limitExceeded cut ∧
          bounded.Adds events cut ∧ free.Adds (events ++ more) full) ∧
    (∀ full, expression.roll free ≠ .error .limitExceeded full) ∧
    ∀ cut, expression.roll bounded = .error .limitExceeded cut → ∀ lower ≤ limit,
      ∃ earlier, expression.roll (session.withLimit (some lower)) =
        .error .limitExceeded earlier := by
  intro free bounded
  have cutOff {full : Session σ}
      (cutShort : expression.root.CutShort { free with counted := 0 } (some limit) full) :
      ∃ events more cut, expression.roll bounded = .error .limitExceeded cut ∧
        bounded.Adds events cut ∧ free.Adds (events ++ more) full := by
    obtain ⟨events, more, cut, fails, recorded, all⟩ := cutShort
    exact ⟨events, more, cut, roll_eq_error_iff.mpr fails, recorded.of_counted, all.of_counted⟩
  refine ⟨?_, ?_, ?_⟩
  · have tighter := Session.tighter_none (some limit)
    cases whole : expression.roll free with
    | ok roll full =>
      obtain ⟨text, rolls⟩ := roll_eq_ok_iff.mp whole
      refine ⟨full, ?_⟩
      rcases rolls.tighten tighter with again | cutShort
      · exact .inl ⟨roll, rfl, roll_eq_ok_iff.mpr ⟨text, again⟩⟩
      · exact .inr (.inr ⟨.inl ⟨roll, whole⟩, cutOff cutShort⟩)
    | error error full =>
      refine ⟨full, ?_⟩
      rcases (roll_eq_error_iff.mp whole).tighten tighter with again | cutShort
      · exact .inr (.inl ⟨error, rfl, roll_eq_error_iff.mpr again⟩)
      · exact .inr (.inr ⟨.inr ⟨error, whole⟩, cutOff cutShort⟩)
  · intro full failed
    obtain ⟨_, limited⟩ := (roll_eq_error_iff.mp failed).limited
    cases limited
  · intro cut failed lower le
    rcases (roll_eq_error_iff.mp failed).tighten (Session.tighter_some le) with again | cutShort
    · exact ⟨_, roll_eq_error_iff.mpr again⟩
    · obtain ⟨_, _, earlier, fails, _⟩ := cutShort
      exact ⟨earlier, roll_eq_error_iff.mpr fails⟩

/-- Two dice are too many if one of them is allowed, and also if none is. -/
theorem roll_limited_second :
    let die : Dice := ⟨.one, .numbered .one⟩
    let expression : Expression := ⟨"d1+(d1)!adv",
      .binary .add (.dice die) (.flagged (.group "d1" (.dice die)) ⟨.adv, none⟩)⟩
    let session := Session.start none Loaded.lowest
    parse "d1+(d1)!adv" = .ok expression ∧
      (∃ cut, expression.roll (session.withLimit (some 1)) = .error .limitExceeded cut ∧
        cut.journal.bounds = [⟨.one, .one⟩]) ∧
      0 ≤ 1 ∧
      ∃ earlier, expression.roll (session.withLimit (some 0)) =
        .error .limitExceeded earlier := by
  intro die expression session
  have parsed : parse "d1+(d1)!adv" = .ok expression := by decide +kernel
  cases failed : expression.roll (session.withLimit (some 1)) with
  | ok roll after => cases failed
  | error error cut =>
    cases failed
    exact ⟨parsed, ⟨_, rfl, rfl⟩, by decide,
      (roll_limited expression session 1).2.2 _ rfl 0 (by decide)⟩

end Expression

end Tabletop
