import Tabletop.Proofs.Draws
import Tabletop.Proofs.Failures

/-!
# The limit on dice

The dice of an expression are counted as they are reached, from zero in every evaluation, and a
group goes on with the count of what is around it. `Expr.Reaches` says which dice term an evaluation
comes to. It fails over too many dice exactly where it comes to a term that takes the count beyond
the limit, and draws none of the dice of that term; so no evaluation draws more dice than the limit.
-/

namespace Tabletop

variable {σ : Type}

/-! ## The count of dice -/

/-- The session has counted `n` dice, no more than its limit, which is below the ceiling. -/
structure Session.Counted (session : Session σ) (limit n : Nat) : Prop where
  limit_eq : session.limit = some limit
  below : limit < Session.countCeiling
  counted_eq : session.counted = n
  within : n ≤ limit

namespace Session

theorem Counted.exceeded_count_iff {session : Session σ} {limit n : Nat}
    (counted : session.Counted limit n) (more : Nat) :
    (session.count more).exceeded = true ↔ limit < n + more := by
  have below := counted.below
  unfold exceeded count
  rw [counted.limit_eq, counted.counted_eq]
  simp only [Option.any_some, decide_eq_true_eq]
  omega

/-- Dice that may be counted are within the limit. -/
theorem Counted.le_of_count {session : Session σ} {limit n more : Nat}
    (counted : session.Counted limit n) (within : (session.count more).exceeded = false) :
    n + more ≤ limit := by
  have fits : ¬ limit < n + more := by
    rw [← counted.exceeded_count_iff, within]
    decide
  exact Nat.le_of_not_lt fits

theorem Counted.record {session : Session σ} {limit n : Nat} (counted : session.Counted limit n)
    (event : Event) : (session.record event).Counted limit n :=
  ⟨counted.limit_eq, counted.below, counted.counted_eq, counted.within⟩

variable [Source σ]

/-- Drawing counts no dice. -/
theorem counted_of_drawMany {bounds : Bounds} {n : Nat} {results : Pool} {session after : Session σ}
    (draws : session.drawMany bounds n = (results, after)) : after.counted = session.counted := by
  induction n generalizing session results with
  | zero =>
    cases draws
    rfl
  | succ n ih =>
    rw [drawMany_succ] at draws
    cases draws
    have later : _ = (session.draw bounds).2.counted := ih rfl
    exact later

/-- A term within the limit is rolled, and its dice are counted. -/
theorem Counted.of_rolls {session after : Session σ} {limit n : Nat} {term : Dice}
    {rolled : Rolled} (counted : session.Counted limit n)
    (rolls : term.Rolls session rolled after) : after.Counted limit (n + term.rolls.val) := by
  have limit_eq := rolls.draws.limit_eq.trans counted.limit_eq
  cases rolls with
  | @intro _ drawn _ within draws sum =>
    have fits := counted.le_of_count within
    have below := counted.below
    refine ⟨limit_eq, below, ?_, fits⟩
    have kept : drawn.counted = (session.count term.rolls.val).counted := counted_of_drawMany draws
    change drawn.counted = n + term.rolls.val
    rw [kept, ← counted.counted_eq]
    change min (session.counted + term.rolls.val) countCeiling = _
    have := counted.counted_eq
    omega

end Session

/-! ## Dice terms that are reached -/

variable [Source σ]

/-- The evaluation of a tree comes to a dice term, after all terms that stand before it: nothing has
failed up to there. -/
inductive Expr.Reaches : Expr → Session σ → List Dice → Dice → Session σ → Prop where
  | dice (term : Dice) (session : Session σ) : Reaches (.dice term) session [] term session
  | group {text : String} {body : Expr} {session reached : Session σ} {earlier : List Dice}
      {term : Dice} (inside : Reaches body session earlier term reached) :
      Reaches (.group text body) session earlier term reached
  | flagged {target : Expr} {flag : Flag} {session reached : Session σ} {earlier : List Dice}
      {term : Dice} (inside : Reaches target session earlier term reached) :
      Reaches (.flagged target flag) session earlier term reached
  | left {op : BinaryOp} {left right : Expr} {session reached : Session σ} {earlier : List Dice}
      {term : Dice} (inside : Reaches left session earlier term reached) :
      Reaches (.binary op left right) session earlier term reached
  | right {op : BinaryOp} {left right : Expr} {first : Outcome}
      {session between reached : Session σ} {earlier : List Dice} {term : Dice}
      (done : left.roll session = .ok first between)
      (inside : Reaches right between earlier term reached) :
      Reaches (.binary op left right) session (left.terms ++ earlier) term reached

namespace Expr

/-- A tree fails over too many dice exactly if a term that is reached has too many. -/
theorem fails_limitExceeded_iff {tree : Expr} {session after : Session σ} :
    tree.Fails session .limitExceeded after ↔
      ∃ earlier term reached, tree.Reaches session earlier term reached ∧
        (reached.count term.rolls.val).exceeded = true ∧ reached.count term.rolls.val = after := by
  constructor
  · intro fails
    generalize cause : RollError.limitExceeded = error at fails
    induction fails with
    | @limit term session excess => exact ⟨[], term, session, .dice term session, excess, rfl⟩
    | sum within draws unsummed => exact absurd (cause ▸ unsummed) (Pool.noExcess_total _)
    | group fails ih =>
      obtain ⟨earlier, term, reached, inside, excess⟩ := ih cause
      exact ⟨earlier, term, reached, .group inside, excess⟩
    | target fails ih =>
      obtain ⟨earlier, term, reached, inside, excess⟩ := ih cause
      exact ⟨earlier, term, reached, .flagged inside, excess⟩
    | operand rolls noOperand =>
      exact absurd (cause ▸ noOperand) (Outcome.noExcess_poolOperand _)
    | choice rolls isOperand refuses =>
      exact absurd (cause ▸ refuses) (Operator.noExcess_ofFlag _ _)
    | selection rolls isOperand evaluates isPool unsummed =>
      exact absurd (cause ▸ unsummed) (Pool.noExcess_total _)
    | left fails ih =>
      obtain ⟨earlier, term, reached, inside, excess⟩ := ih cause
      exact ⟨earlier, term, reached, .left inside, excess⟩
    | @right _ left _ _ _ _ _ _ rolls fails ih =>
      obtain ⟨earlier, term, reached, inside, excess⟩ := ih cause
      exact ⟨left.terms ++ earlier, term, reached, .right (roll_eq_ok_iff.mpr rolls) inside, excess⟩
    | operator leftRolls rightRolls refuses =>
      exact absurd (cause ▸ refuses) (BinaryOp.noExcess_apply _ _ _)
  · rintro ⟨earlier, term, reached, reaches, excess, rfl⟩
    induction reaches with
    | dice term session => exact .limit excess
    | group inside ih => exact .group (ih excess)
    | flagged inside ih => exact .target (ih excess)
    | left inside ih => exact .left (ih excess)
    | right done inside ih => exact .right (roll_eq_ok_iff.mp done) (ih excess)

/-- Where a term is reached, the dice of all terms before it have been drawn and no others. -/
theorem Reaches.draws {tree : Expr} {session reached : Session σ} {earlier : List Dice}
    {term : Dice} (reaches : tree.Reaches session earlier term reached) :
    ∃ faces, session.Draws (earlier.flatMap Dice.requests) faces reached := by
  induction reaches with
  | dice term session => exact ⟨[], .refl session⟩
  | group inside ih | flagged inside ih | left inside ih => exact ih
  | right done inside ih =>
    obtain ⟨faces, draws⟩ := ih
    rw [List.flatMap_append]
    exact ⟨_, (roll_eq_ok_iff.mp done).draws.trans draws⟩

/-- The dice of a tree that is rolled are within the limit, and are counted. -/
theorem Rolls.counted {tree : Expr} {session after : Session σ} {outcome : Outcome} {limit n : Nat}
    (rolls : tree.Rolls session outcome after) (counted : session.Counted limit n) :
    after.Counted limit (n + Dice.number tree.terms) := by
  induction rolls generalizing n with
  | int score session => exact counted
  | dice rolls => exact counted.of_rolls rolls
  | group rolls ih => exact ih counted
  | flagged rolls isOperand evaluates isPool selects ih =>
    exact (ih counted).record _
  | binary leftRolls rightRolls applies leftIh rightIh =>
    rw [terms, Dice.number_append, ← Nat.add_assoc]
    exact (rightIh (leftIh counted)).record _

/-- Where a term is reached, the dice of all terms before it are counted. -/
theorem Reaches.counted {tree : Expr} {session reached : Session σ} {earlier : List Dice}
    {term : Dice} {limit n : Nat} (reaches : tree.Reaches session earlier term reached)
    (counted : session.Counted limit n) : reached.Counted limit (n + Dice.number earlier) := by
  induction reaches generalizing n with
  | dice term session => exact counted
  | group inside ih | flagged inside ih | left inside ih => exact ih counted
  | right done inside ih =>
    rw [Dice.number_append, ← Nat.add_assoc]
    exact ih ((roll_eq_ok_iff.mp done).counted counted)

/-- A tree that fails has drawn the faces of some of its terms, from the first one on, and their
dice are within the limit. -/
theorem Fails.draws {tree : Expr} {session after : Session σ} {error : RollError}
    (fails : tree.Fails session error after) :
    ∃ earlier faces, earlier <+: tree.terms ∧
      session.Draws (earlier.flatMap Dice.requests) faces after ∧
      ∀ limit n, session.Counted limit n → n + Dice.number earlier ≤ limit := by
  induction fails with
  | limit excess =>
    refine ⟨[], [], List.nil_prefix, (Session.Draws.refl _).count _, fun limit n counted => ?_⟩
    exact counted.within
  | @sum term session _ results _ within draws unsummed =>
    refine ⟨[term], results, List.prefix_rfl, ?_, fun limit n counted => ?_⟩
    · rw [List.flatMap_singleton]
      exact (Session.draws_drawMany draws).of_counted
    · simpa using counted.le_of_count within
  | group fails ih => exact ih
  | target fails ih => exact ih
  | operand rolls noOperand | choice rolls isOperand refuses =>
    exact ⟨_, _, List.prefix_rfl, rolls.draws, fun _ _ counted => (rolls.counted counted).within⟩
  | selection rolls isOperand evaluates isPool unsummed =>
    exact ⟨_, _, List.prefix_rfl, rolls.draws.record _,
      fun _ _ counted => (rolls.counted counted).within⟩
  | left fails ih =>
    obtain ⟨earlier, faces, first, draws, within⟩ := ih
    exact ⟨earlier, faces, first.trans (List.prefix_append _ _), draws, within⟩
  | @right _ left right _ _ _ _ _ rolls fails ih =>
    obtain ⟨earlier, _, first, draws, within⟩ := ih
    have all := rolls.draws.trans draws
    rw [← List.flatMap_append] at all
    refine ⟨left.terms ++ earlier, _, (List.prefix_append_right_inj _).mpr first, all, ?_⟩
    intro limit n counted
    rw [Dice.number_append, ← Nat.add_assoc]
    exact within limit _ (rolls.counted counted)
  | operator leftRolls rightRolls refuses =>
    have all := leftRolls.draws.trans rightRolls.draws
    rw [← List.flatMap_append] at all
    refine ⟨_, _, List.prefix_rfl, all, fun limit n counted => ?_⟩
    rw [terms, Dice.number_append, ← Nat.add_assoc]
    exact (rightRolls.counted (leftRolls.counted counted)).within

/-- A term that is reached is the one that follows the terms before it. -/
theorem Reaches.prefix_terms {tree : Expr} {session reached : Session σ} {earlier : List Dice}
    {term : Dice} (reaches : tree.Reaches session earlier term reached) :
    earlier ++ [term] <+: tree.terms := by
  induction reaches with
  | dice term session => exact List.prefix_rfl
  | group inside ih | flagged inside ih => exact ih
  | left inside ih => exact ih.trans (List.prefix_append _ _)
  | right done inside ih =>
    rw [List.append_assoc]
    exact (List.prefix_append_right_inj _).mpr ih

end Expr

/-! ## Evaluations -/

/-- The computation ends in this state of the session, with a result or with a failure. -/
def RollM.Leaves {α : Type} (work : RollM σ α) (session after : Session σ) : Prop :=
  (∃ value, work session = .ok value after) ∨ ∃ error, work session = .error error after

namespace Expression

/-- Every evaluation of an accepted text begins with no dice counted. It asks the source for the
faces of the dice terms in the order they stand in the text, and of all dice of a term or of none.
If it succeeds, it has asked for all faces, and the outcome holds them in the order they were given.
It fails over too many dice exactly if it reaches a term with which the dice are more than the
limit, and then it has drawn the dice of the terms before that one only. It never draws more dice
than the limit, whatever the session has done before. -/
theorem roll_draws {text : String} {expression : Expression} {session : Session σ}
    (parsed : parse text = .ok expression)
    (below : ∀ limit ∈ session.limit, limit < Session.countCeiling) :
    let terms := (Token.scan text.toList).filterMap Token.dice?
    let start := { session with counted := 0 }
    (∀ roll after, expression.roll session = .ok roll after →
      session.Draws (terms.flatMap Dice.requests) roll.outcome.faces after) ∧
    (∀ error after, expression.roll session = .error error after →
      ∃ earlier faces, earlier <+: terms ∧
        session.Draws (earlier.flatMap Dice.requests) faces after) ∧
    (∀ after, expression.roll session = .error .limitExceeded after →
      ∃ earlier term reached, expression.root.Reaches start earlier term reached ∧
        ∃ limit ∈ session.limit, limit < Dice.number (earlier ++ [term])) ∧
    (∀ earlier term reached, expression.root.Reaches start earlier term reached →
      earlier ++ [term] <+: terms ∧
        ∀ limit ∈ session.limit, limit < Dice.number (earlier ++ [term]) →
          ∃ faces after, expression.roll session = .error .limitExceeded after ∧
            session.Draws (earlier.flatMap Dice.requests) faces after) ∧
    ∀ after, expression.roll.Leaves session after → ∀ limit ∈ session.limit,
      after.journal.bounds.length ≤ session.journal.bounds.length + limit := by
  intro terms start
  have terms_eq : expression.root.terms = terms := terms_of_parse parsed
  have counted : ∀ limit ∈ session.limit, start.Counted limit 0 := fun limit limited =>
    ⟨limited, below limit limited, rfl, Nat.zero_le limit⟩
  refine ⟨?_, ?_, ?_, ?_, ?_⟩
  · intro roll after done
    rw [← terms_eq]
    exact (roll_eq_ok_iff.mp done).2.draws.of_counted
  · intro error after failed
    obtain ⟨earlier, faces, first, draws, _⟩ := (roll_eq_error_iff.mp failed).draws
    exact ⟨earlier, faces, terms_eq ▸ first, draws.of_counted⟩
  · intro after failed
    obtain ⟨earlier, term, reached, reaches, excess, _⟩ :=
      Expr.fails_limitExceeded_iff.mp (roll_eq_error_iff.mp failed)
    obtain ⟨faces, draws⟩ := reaches.draws
    obtain ⟨limit, limited, _⟩ := (Option.any_eq_true _ _).mp excess
    have limited : limit ∈ session.limit := draws.limit_eq.symm.trans limited
    rw [(reaches.counted (counted limit limited)).exceeded_count_iff] at excess
    exact ⟨earlier, term, reached, reaches, limit, limited, by simpa using excess⟩
  · intro earlier term reached reaches
    refine ⟨terms_eq ▸ reaches.prefix_terms, fun limit limited tooMany => ?_⟩
    have excess : (reached.count term.rolls.val).exceeded = true := by
      rw [(reaches.counted (counted limit limited)).exceeded_count_iff]
      simpa using tooMany
    obtain ⟨faces, draws⟩ := reaches.draws
    have fails := Expr.fails_limitExceeded_iff.mpr ⟨earlier, term, reached, reaches, excess, rfl⟩
    exact ⟨faces, _, roll_eq_error_iff.mpr fails, (draws.count _).of_counted⟩
  · rintro after (⟨roll, done⟩ | ⟨error, failed⟩) limit limited
    · have rolls := (roll_eq_ok_iff.mp done).2
      have within := (rolls.counted (counted limit limited)).within
      rw [rolls.draws.of_counted.bounds_eq, List.length_append, Dice.length_requests]
      omega
    · obtain ⟨earlier, faces, _, draws, within⟩ := (roll_eq_error_iff.mp failed).draws
      have within := within limit 0 (counted limit limited)
      rw [draws.of_counted.bounds_eq, List.length_append, Dice.length_requests]
      omega

/-- Under a limit of one die, the second die of a text is reached but not drawn. -/
theorem roll_draws_up_to_limit :
    let six : Tally := ⟨6, by decide, by decide⟩
    let first : Dice := ⟨.one, .numbered six⟩
    let second : Dice := ⟨.one, .fate true⟩
    let expression : Expression := ⟨"d6+(dF)!adv",
      .binary .add (.dice first) (.flagged (.group "dF" (.dice second)) ⟨.adv, none⟩)⟩
    let session := Session.start (some 1) Loaded.highest
    parse "d6+(dF)!adv" = .ok expression ∧
      (∀ limit ∈ session.limit, limit < Session.countCeiling) ∧
      ∃ faces after, expression.roll session = .error .limitExceeded after ∧
        session.Draws [⟨.one, six.toScore⟩] faces after := by
  intro six first second expression session
  have parsed : parse "d6+(dF)!adv" = .ok expression := by decide +kernel
  have below : ∀ limit ∈ session.limit, limit < Session.countCeiling := by
    intro limit limited
    cases limited
    decide
  cases done : (Expr.dice first).roll session with
  | ok outcome between =>
    have reaches : expression.root.Reaches session ([first] ++ []) second between :=
      .right done (.flagged (.group (.dice second between)))
    obtain ⟨_, excess⟩ := (roll_draws parsed below).2.2.2.1 _ _ _ reaches
    exact ⟨parsed, below, excess 1 rfl (by decide)⟩
  | error error after => cases done

end Expression

end Tabletop
