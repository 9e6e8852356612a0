import Tabletop.Proofs.Limit

/-!
# The count of a session

A session is asked for expressions and for single dice terms, one after another. Its count is meant
to tell how many dice it has drawn since it last began an expression. It does, up to the ceiling,
unless a call since then failed over too many dice: these are counted although none of them is
drawn, and nothing but another expression takes them off the count.
-/

namespace Tabletop

open RollError (NoExcess)

variable {σ : Type}

/-! ## The count and the dice that were drawn -/

/-- How the count stands to the number of dice that were drawn, if no dice were refused or if some
were. -/
inductive Session.Tells (drawn : Nat) (session : Session σ) : Bool → Prop where
  | truly (counted_eq : session.counted = min drawn countCeiling)
      (within : session.exceeded = false) : Tells drawn session false
  | refused (excess : session.exceeded = true) (fits : session.counted ≤ countCeiling)
      (allowed : ∀ limit ∈ session.limit, drawn ≤ limit) : Tells drawn session true

namespace Session

theorem exceeded_iff {session : Session σ} :
    session.exceeded = true ↔ ∃ limit ∈ session.limit, limit < session.counted := by
  unfold exceeded
  simp only [Option.any_eq_true, decide_eq_true_eq, Option.mem_def]

/-- Once there are too many dice, there are too many with more of them. -/
theorem exceeded_count {session : Session σ} (excess : session.exceeded = true)
    (fits : session.counted ≤ countCeiling) (n : Nat) : (session.count n).exceeded = true := by
  obtain ⟨limit, limited, below⟩ := exceeded_iff.mp excess
  refine exceeded_iff.mpr ⟨limit, limited, lt_of_lt_of_le below ?_⟩
  exact le_min (Nat.le_add_right _ _) fits

theorem tells_zero (session : Session σ) : { session with counted := 0 }.Tells 0 false :=
  .truly rfl (Bool.eq_false_iff.mpr fun excess => by
    obtain ⟨_, _, below⟩ := exceeded_iff.mp excess
    exact Nat.not_lt_zero _ below)

namespace Tells

variable {session after : Session σ} {drawn : Nat} {refused : Bool}

/-- The count is the number of dice that were drawn if none were refused and if it has not come to
stand still. -/
theorem counted_eq_iff (tells : session.Tells drawn refused) :
    session.counted = drawn ↔ refused = false ∧ drawn ≤ countCeiling := by
  cases tells with
  | truly counted_eq within =>
    rw [counted_eq, min_eq_left_iff]
    exact (and_iff_right rfl).symm
  | refused excess fits allowed =>
    obtain ⟨limit, limited, below⟩ := exceeded_iff.mp excess
    have fewer := lt_of_le_of_lt (allowed limit limited) below
    exact ⟨fun same => absurd same fewer.ne', fun same => nomatch same.1⟩

theorem record (tells : session.Tells drawn refused) (event : Event) :
    (session.record event).Tells drawn refused := by
  cases tells with
  | truly counted_eq within => exact .truly counted_eq within
  | refused excess fits allowed => exact .refused excess fits allowed

/-- Dice that are refused are counted but not drawn. -/
theorem refuse {n : Nat} (tells : session.Tells drawn refused)
    (excess : (session.count n).exceeded = true) : (session.count n).Tells drawn true := by
  refine .refused excess (min_le_right _ _) fun limit limited => ?_
  cases tells with
  | truly counted_eq within =>
    obtain ⟨other, otherLimited, below⟩ := exceeded_iff.mp excess
    cases Option.mem_unique limited otherLimited
    have allowed : ¬ limit < session.counted := fun beyond =>
      Bool.false_ne_true (within.symm.trans (exceeded_iff.mpr ⟨limit, limited, beyond⟩))
    have reached : limit < countCeiling := lt_of_lt_of_le below (min_le_right _ _)
    omega
  | refused excess fits allowed => exact allowed limit limited

/-- Whatever fails without the session refuses no dice. -/
theorem fail {α : Type} {error : RollError} {work : Except RollError α}
    (tells : session.Tells drawn false) (noExcess : NoExcess work)
    (failed : work = .error error) : session.Tells drawn (error = .limitExceeded) := by
  have other : error ≠ .limitExceeded := by
    rintro rfl
    exact noExcess failed
  rwa [decide_eq_false other]

variable [Source σ]

/-- Dice that are within the limit are counted and drawn. -/
theorem drawMany {n : Nat} {bounds : Bounds} {results : Pool} (tells : session.Tells drawn false)
    (within : (session.count n).exceeded = false)
    (draws : (session.count n).drawMany bounds n = (results, after)) :
    after.Tells (drawn + n) false := by
  obtain ⟨counted_eq, _⟩ := tells
  have kept : after.counted = (session.count n).counted := counted_of_drawMany draws
  have limit_eq := (draws_drawMany draws).limit_eq
  refine .truly ?_ ?_
  · rw [kept]
    change min (session.counted + n) countCeiling = _
    omega
  · rw [← within]
    unfold exceeded
    rw [kept, limit_eq]

end Tells

end Session

/-! ## Trees -/

variable [Source σ]

/-- All dice of a tree that is rolled are counted. -/
theorem Expr.Rolls.tells {tree : Expr} {session after : Session σ} {outcome : Outcome} {drawn : Nat}
    (rolls : tree.Rolls session outcome after) (tells : session.Tells drawn false) :
    after.Tells (drawn + (tree.terms.flatMap Dice.requests).length) false := by
  induction rolls generalizing drawn with
  | int score session => exact tells
  | dice rolls =>
    cases rolls with
    | intro within draws sum =>
      rw [terms, List.flatMap_singleton, Dice.requests, List.length_replicate]
      exact (tells.drawMany within draws).record _
  | group rolls ih => exact ih tells
  | flagged rolls isOperand evaluates isPool selects ih => exact (ih tells).record _
  | binary leftRolls rightRolls applies leftIh rightIh =>
    rw [terms, List.flatMap_append, List.length_append, ← Nat.add_assoc]
    exact (rightIh (leftIh tells)).record _

/-- A tree that fails has counted the dice that were drawn, and no more unless it fails over too
many dice. -/
theorem Expr.Fails.tells {tree : Expr} {session after : Session σ} {error : RollError} {drawn : Nat}
    (fails : tree.Fails session error after) (tells : session.Tells drawn false) :
    ∃ requests faces, session.Draws requests faces after ∧
      after.Tells (drawn + requests.length) (error = .limitExceeded) := by
  induction fails generalizing drawn with
  | limit excess => exact ⟨[], [], (Session.Draws.refl _).count _, tells.refuse excess⟩
  | @sum term _ _ results _ within draws unsummed =>
    refine ⟨term.requests, results, (Session.draws_drawMany draws).of_counted, ?_⟩
    rw [Dice.requests, List.length_replicate]
    exact (tells.drawMany within draws).fail (Pool.noExcess_total results) unsummed
  | group fails ih | target fails ih | left fails ih => exact ih tells
  | @operand _ _ inner _ _ _ rolls noOperand =>
    exact ⟨_, _, rolls.draws, (rolls.tells tells).fail inner.noExcess_poolOperand noOperand⟩
  | @choice _ flag _ _ _ operand _ rolls isOperand refuses =>
    exact ⟨_, _, rolls.draws,
      (rolls.tells tells).fail (Operator.noExcess_ofFlag flag operand) refuses⟩
  | @selection _ _ _ _ _ _ _ selected _ rolls isOperand evaluates isPool unsummed =>
    exact ⟨_, _, rolls.draws.record _,
      ((rolls.tells tells).record _).fail (Pool.noExcess_total selected) unsummed⟩
  | right rolls fails ih =>
    obtain ⟨requests, faces, draws, told⟩ := ih (rolls.tells tells)
    refine ⟨_, _, rolls.draws.trans draws, ?_⟩
    rwa [List.length_append, ← Nat.add_assoc]
  | @operator op _ _ first second _ _ _ _ leftRolls rightRolls refuses =>
    refine ⟨_, _, leftRolls.draws.trans rightRolls.draws, ?_⟩
    rw [List.length_append, ← Nat.add_assoc]
    exact (rightRolls.tells (leftRolls.tells tells)).fail (op.noExcess_apply _ _) refuses

/-! ## Calls -/

/-- How the computation leaves the session, and whether it failed over too many dice. -/
def RollM.ending {α : Type} (work : RollM σ α) (session : Session σ) : Session σ × Bool :=
  match work session with
  | .ok _ after => (after, false)
  | .error error after => (after, error = .limitExceeded)

/-- An expression counts from zero what it draws. -/
theorem Expression.tells_ending (expression : Expression) (session : Session σ) :
    let ending := expression.roll.ending session
    ∃ requests faces, session.Draws requests faces ending.1 ∧
      ending.1.Tells requests.length ending.2 := by
  have zero := session.tells_zero
  unfold RollM.ending
  cases done : expression.roll session with
  | ok roll after =>
    have rolls := (roll_eq_ok_iff.mp done).2
    exact ⟨_, _, rolls.draws.of_counted, by simpa only [Nat.zero_add] using rolls.tells zero⟩
  | error error after =>
    obtain ⟨requests, faces, draws, tells⟩ := (roll_eq_error_iff.mp done).tells zero
    exact ⟨requests, faces, draws.of_counted, by simpa only [Nat.zero_add] using tells⟩

/-- A single dice term is counted on. After a refusal it is refused, too. -/
theorem Dice.tells_ending (term : Dice) {session : Session σ} {drawn : Nat} {refused : Bool}
    (tells : session.Tells drawn refused) :
    let ending := term.roll.ending session
    ∃ requests faces, session.Draws requests faces ending.1 ∧
      ending.1.Tells (drawn + requests.length) (refused || ending.2) := by
  unfold RollM.ending
  cases tells with
  | refused excess fits allowed =>
    have tooMany := Session.exceeded_count excess fits term.rolls.val
    rw [roll_eq_error_iff.mpr (.limit tooMany)]
    exact ⟨[], [], (Session.Draws.refl _).count _,
      Session.Tells.refuse (.refused excess fits allowed) tooMany⟩
  | truly counted_eq within =>
    have tells : session.Tells drawn false := .truly counted_eq within
    cases done : term.roll session with
    | ok rolled after =>
      have rolls := Expr.Rolls.dice (roll_eq_ok_iff.mp done)
      exact ⟨_, _, rolls.draws, rolls.tells tells⟩
    | error error after => exact (roll_eq_error_iff.mp done).tells tells

/-- What a session can be asked for. -/
inductive Session.Call where
  | expression (expression : Expression)
  | dice (term : Dice)

/-- A session since it last began an expression, or since its start if it has begun none. -/
structure Session.Stretch (σ : Type) where
  /-- The session as it was then. -/
  begun : Session σ
  reached : Session σ
  /-- Whether a call since then failed over too many dice. -/
  refused : Bool

namespace Session.Stretch

def start (limit : Option Nat) (source : σ) : Stretch σ :=
  ⟨.start limit source, .start limit source, false⟩

/-- The session answers one more call. -/
def answer (stretch : Stretch σ) : Call → Stretch σ
  | .expression expression =>
    let ending := expression.roll.ending stretch.reached
    ⟨stretch.reached, ending.1, ending.2⟩
  | .dice term =>
    let ending := term.roll.ending stretch.reached
    ⟨stretch.begun, ending.1, stretch.refused || ending.2⟩

/-- The count tells of all dice that were drawn in the stretch. -/
def Told (stretch : Stretch σ) : Prop :=
  ∃ requests faces, stretch.begun.Draws requests faces stretch.reached ∧
    stretch.reached.Tells requests.length stretch.refused

theorem told_start (limit : Option Nat) (source : σ) : (start limit source).Told :=
  ⟨[], [], .refl _, tells_zero (.start limit source)⟩

theorem Told.answer {stretch : Stretch σ} (told : stretch.Told) (call : Call) :
    (stretch.answer call).Told := by
  cases call with
  | expression expression => exact expression.tells_ending stretch.reached
  | dice term =>
    obtain ⟨requests, faces, draws, tells⟩ := told
    obtain ⟨others, more, drawsMore, tellsMore⟩ := term.tells_ending tells
    refine ⟨requests ++ others, faces ++ more, draws.trans drawsMore, ?_⟩
    rwa [List.length_append]

theorem Told.foldl {stretch : Stretch σ} (told : stretch.Told) (calls : List Call) :
    (calls.foldl Stretch.answer stretch).Told := by
  induction calls generalizing stretch with
  | nil => exact told
  | cons call calls ih => exact ih (told.answer call)

/-- After any calls, whether they succeed or fail, the count is the number of dice that were drawn
since the session last began an expression, or since its start, exactly if no call since then failed
over too many dice and the dice are no more than can be counted. -/
theorem counted_eq_drawn_iff (limit : Option Nat) (source : σ) (calls : List Call) :
    let stretch := calls.foldl answer (start limit source)
    ∃ requests faces, stretch.begun.Draws requests faces stretch.reached ∧
      (stretch.reached.counted = requests.length ↔
        stretch.refused = false ∧ requests.length ≤ countCeiling) := by
  obtain ⟨requests, faces, draws, tells⟩ := (told_start limit source).foldl calls
  exact ⟨requests, faces, draws, tells.counted_eq_iff⟩

/-- Eleven dice under a limit of ten are all counted, and none of them is drawn. -/
theorem counted_ne_drawn :
    let six : Tally := ⟨6, by decide, by decide⟩
    let eleven : Tally := ⟨11, by decide, by decide⟩
    let expression : Expression := ⟨"11d6", .dice ⟨eleven, .numbered six⟩⟩
    let stretch := [Call.expression expression].foldl answer (start (some 10) Loaded.lowest)
    Expression.parse "11d6" = .ok expression ∧ stretch.reached.counted = 11 ∧
      ¬ ∃ requests faces, stretch.begun.Draws requests faces stretch.reached ∧
        stretch.reached.counted = requests.length := by
  intro six eleven expression stretch
  refine ⟨by decide +kernel, rfl, ?_⟩
  rintro ⟨requests, faces, draws, same⟩
  have none : [] = requests := draws.bounds_eq
  cases none
  cases same

end Session.Stretch

end Tabletop
