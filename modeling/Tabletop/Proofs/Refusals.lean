import Tabletop.Proofs.Failures
import Tabletop.Proofs.Leading

/-!
# What a flag fails over

A flag needs the results of its target. A target that begins with a number has none, whatever its
dice show, and the flag refuses it in its own name. Any other target fails to have results only if
one of them leaves the range of scores; `Flag.Refuses` says what the flag may fail over then. No
evaluation fails in a way that is not told by a flag, by arithmetic or by the number of dice.
-/

namespace Tabletop

/-! ## Failures of arithmetic and of sums -/

/-- A computation without a session fails in its first part, or in the rest after the first part
succeeds. -/
theorem RollError.bind_eq_error_iff {α β : Type} {first : Except RollError α}
    {next : α → Except RollError β} {error : RollError} :
    (first >>= next) = .error error ↔
      first = .error error ∨ ∃ middle, first = .ok middle ∧ next middle = .error error := by
  cases first with
  | ok middle =>
    constructor
    · intro failed
      exact .inr ⟨middle, rfl, failed⟩
    · rintro (failed | ⟨_, same, failed⟩)
      · cases failed
      · cases same
        exact failed
  | error fault =>
    constructor
    · intro failed
      cases failed
      exact .inl rfl
    · rintro (failed | ⟨_, same, _⟩)
      · cases failed
        rfl
      · cases same

theorem Score.eq_overflow_of_narrow {n : Int} {error : RollError}
    (failed : narrow n = .error error) : error = .overflow :=
  (narrow_eq_error_iff.mp failed).2

/-- Arithmetic overflows, or its right operand is a zero that no left operand can be divided by. -/
theorem BinaryOp.error_cases_of_apply {op : BinaryOp} {a b : Score} {error : RollError}
    (failed : op.apply a b = .error error) :
    error = .overflow ∨
      error = .divisionByZero ∧ ∀ other, op.apply other b = .error .divisionByZero := by
  cases op with
  | add | multiply => exact .inl (Score.eq_overflow_of_narrow failed)
  | subtract =>
    change (Score.narrow (a.val - b.val)).map (max Score.one) = .error error at failed
    cases difference : Score.narrow (a.val - b.val) with
    | ok score =>
      rw [difference] at failed
      cases failed
    | error fault =>
      rw [difference] at failed
      cases failed
      exact .inl (Score.eq_overflow_of_narrow difference)
  | divide =>
    by_cases zero : b.val = 0
    · have divides (other : Score) : BinaryOp.divide.apply other b = .error .divisionByZero :=
        if_pos zero
      rw [divides a] at failed
      cases failed
      exact .inr ⟨rfl, divides⟩
    · have divides : BinaryOp.divide.apply a b = Score.narrow (a.val.fdiv b.val) :=
        Score.divide_of_ne_zero zero
      rw [divides] at failed
      exact .inl (Score.eq_overflow_of_narrow failed)

namespace Pool

/-- Where not every result can be changed, one of them cannot. -/
theorem exists_mem_of_mapM_eq_error {change : Score → Except RollError Score} {pool : Pool}
    {error : RollError} (failed : pool.mapM change = .error error) :
    ∃ result ∈ pool, change result = .error error := by
  induction pool with
  | nil => cases failed
  | cons result pool ih =>
    rw [List.mapM_cons] at failed
    rcases RollError.bind_eq_error_iff.mp failed with first | ⟨_, _, failed⟩
    · exact ⟨result, List.mem_cons_self, first⟩
    rcases RollError.bind_eq_error_iff.mp failed with rest | ⟨_, _, failed⟩
    · obtain ⟨other, member, same⟩ := ih rest
      exact ⟨other, List.mem_cons_of_mem result member, same⟩
    · cases failed

theorem eq_overflow_of_foldlM {pool : Pool} {start : Score} {error : RollError}
    (failed : pool.foldlM (fun sum result => Score.narrow (sum.val + result.val)) start =
      .error error) : error = .overflow := by
  induction pool generalizing start with
  | nil => cases failed
  | cons result pool ih =>
    rw [List.foldlM_cons] at failed
    rcases RollError.bind_eq_error_iff.mp failed with step | ⟨_, _, rest⟩
    · exact Score.eq_overflow_of_narrow step
    · exact ih rest

/-- A pool that has no total has a sum that overflows. -/
theorem eq_overflow_of_total {pool : Pool} {error : RollError}
    (failed : pool.total = .error error) : error = .overflow :=
  eq_overflow_of_foldlM failed

theorem advantage_eq_error_iff {pool : Pool} {error : RollError} :
    pool.advantage = .error error ↔ pool = [] ∧ error = .emptyPool .advantage := by
  rw [← List.max?_eq_none_iff, advantage]
  cases pool.max? <;> simp [eq_comm]

theorem disadvantage_eq_error_iff {pool : Pool} {error : RollError} :
    pool.disadvantage = .error error ↔ pool = [] ∧ error = .emptyPool .disadvantage := by
  rw [← List.min?_eq_none_iff, disadvantage]
  cases pool.min? <;> simp [eq_comm]

end Pool

/-! ## Pools of targets -/

namespace Outcome

variable {outcome : Outcome} {choices : Pool}

/-- What begins with a number has no results. -/
theorem pool_of_leading_literal {score : Score} (first : outcome.leading = .literal score) :
    outcome.pool = .error (.numberAsPool .literal) := by
  induction outcome with
  | literal => rfl
  | dice | flagged => cases first
  | group text inner ih => exact ih first
  | binary op left right total leftIh =>
    rw [pool, leftIh first]
    rfl

/-- What begins with dice or with a flag has results unless one of them overflows. Its arithmetic
does not divide by zero, since it has been done with totals already. -/
theorem eq_overflow_of_pool (consistent : ∀ node ∈ outcome.nodes, node.Consistent)
    (noNumber : ∀ score, outcome.leading ≠ .literal score) {error : RollError}
    (failed : outcome.pool = .error error) : error = .overflow := by
  induction outcome generalizing error with
  | literal score => exact absurd rfl (noNumber score)
  | dice | flagged => cases failed
  | group text inner ih =>
    exact ih (fun node inside => consistent node (List.mem_append_left _ inside)) noNumber failed
  | binary op left right total leftIh =>
    have inner : ∀ node ∈ left.nodes, node.Consistent := fun node inside =>
      consistent node (List.mem_append_left _ (List.mem_append_left _ inside))
    have applies : op.apply left.total right.total = .ok total := consistent _ (mem_nodes _)
    rw [pool] at failed
    cases leftPool : left.pool with
    | error fault =>
      rw [leftPool] at failed
      cases failed
      exact leftIh inner noNumber leftPool
    | ok results =>
      rw [leftPool] at failed
      obtain ⟨result, _, refused⟩ := Pool.exists_mem_of_mapM_eq_error failed
      rcases BinaryOp.error_cases_of_apply refused with overflow | ⟨_, always⟩
      · exact overflow
      -- a zero on the right side would have kept the totals from being divided
      · rw [always] at applies
        cases applies

theorem poolOperand_of_leading_literal {score : Score}
    (first : outcome.leading = .literal score) :
    outcome.poolOperand = .ok (.number outcome.total) := by
  unfold poolOperand
  split
  · cases first
  · rw [pool_of_leading_literal first]

theorem poolOperand_of_overflow (failed : outcome.pool = .error .overflow) :
    outcome.poolOperand = .error .overflow := by
  unfold poolOperand
  split
  · cases failed
  · rw [failed]

/-- What has results is an operand that gives them, whatever asks for them. -/
theorem exists_poolOperand_of_pool (isPool : outcome.pool = .ok choices) :
    ∃ operand, outcome.poolOperand = .ok operand ∧ ∀ user, operand.toPool user = .ok choices := by
  suffices found : ∃ operand, outcome.poolOperand = .ok operand by
    obtain ⟨operand, isOperand⟩ := found
    exact ⟨operand, isOperand, toPool_of_poolOperand isOperand isPool⟩
  unfold poolOperand
  split
  · exact ⟨_, rfl⟩
  · rw [isPool]
    exact ⟨_, rfl⟩

/-- A flag meets a number, results that overflow, or results. -/
theorem poolOperand_cases (consistent : ∀ node ∈ outcome.nodes, node.Consistent) :
    (∃ score, outcome.leading = .literal score ∧
        outcome.poolOperand = .ok (.number outcome.total)) ∨
      (∀ score, outcome.leading ≠ .literal score) ∧
        (outcome.pool = .error .overflow ∧ outcome.poolOperand = .error .overflow ∨
          ∃ choices operand, outcome.pool = .ok choices ∧ outcome.poolOperand = .ok operand ∧
            ∀ user, operand.toPool user = .ok choices) := by
  by_cases number : ∃ score, outcome.leading = .literal score
  · obtain ⟨score, first⟩ := number
    exact .inl ⟨score, first, poolOperand_of_leading_literal first⟩
  have noNumber := not_exists.mp number
  refine .inr ⟨noNumber, ?_⟩
  cases isPool : outcome.pool with
  | error error =>
    cases eq_overflow_of_pool consistent noNumber isPool
    exact .inl ⟨rfl, poolOperand_of_overflow isPool⟩
  | ok choices =>
    obtain ⟨operand, isOperand, gives⟩ := exists_poolOperand_of_pool isPool
    exact .inr ⟨choices, operand, rfl, isOperand, gives⟩

end Outcome

/-! ## Flags on their targets -/

/-- No word stands for rolling again. -/
theorem Flag.kind_ne_reroll (flag : Flag) : flag.kind ≠ .reroll := by
  obtain ⟨word, count⟩ := flag
  cases word <;> nofun

namespace Operator

variable {flag : Flag} {operand : Operand} {choices : Pool}

/-- Every kind of flag refuses a number in its own name. -/
theorem evaluate_ofFlag_number (flag : Flag) (score : Score) :
    (ofFlag flag (.number score)).evaluate = .error (.numberAsPool (.flag flag.kind)) := by
  unfold ofFlag
  cases flag.kind <;> rfl

/-- A flag fails on results if there are none of which it could take the best or the worst, or if
it does not do anything yet. -/
theorem error_cases_of_evaluate_ofFlag (isPool : ∀ user, operand.toPool user = .ok choices)
    {error : RollError} (refuses : (ofFlag flag operand).evaluate = .error error) :
    error = .emptyPool flag.kind ∧ (flag.kind = .advantage ∨ flag.kind = .disadvantage) ∧
        choices = [] ∨
      error = .unsupported flag.kind ∧ (flag.kind = .grow ∨ flag.kind = .shrink) := by
  unfold ofFlag at refuses
  cases kind : flag.kind with
  | advantage =>
    simp only [kind, evaluate, isPool, RollError.bind_eq_error_iff] at refuses
    obtain refused | ⟨_, same, fails | ⟨_, _, refused⟩⟩ := refuses
    · cases refused
    · cases same
      obtain ⟨none, rfl⟩ := Pool.advantage_eq_error_iff.mp fails
      exact .inl ⟨rfl, .inl rfl, none⟩
    · cases refused
  | disadvantage =>
    simp only [kind, evaluate, isPool, RollError.bind_eq_error_iff] at refuses
    obtain refused | ⟨_, same, fails | ⟨_, _, refused⟩⟩ := refuses
    · cases refused
    · cases same
      obtain ⟨none, rfl⟩ := Pool.disadvantage_eq_error_iff.mp fails
      exact .inl ⟨rfl, .inr rfl, none⟩
    · cases refused
  | keep | drop =>
    simp only [kind, evaluate, isPool] at refuses
    cases refuses
  | grow =>
    simp only [kind, evaluate, isPool] at refuses
    cases refuses
    exact .inr ⟨rfl, .inl rfl⟩
  | shrink =>
    simp only [kind, evaluate, isPool] at refuses
    cases refuses
    exact .inr ⟨rfl, .inr rfl⟩
  | reroll => exact absurd kind flag.kind_ne_reroll

/-- A flag that does not do anything yet fails on any results. -/
theorem evaluate_ofFlag_unsupported (isPool : ∀ user, operand.toPool user = .ok choices)
    (kind : flag.kind = .grow ∨ flag.kind = .shrink) :
    (ofFlag flag operand).evaluate = .error (.unsupported flag.kind) := by
  unfold ofFlag
  rcases kind with kind | kind
  all_goals
    simp only [kind, evaluate, isPool]
    rfl

end Operator

/-- Why a flag refuses what its target has come to. -/
inductive Flag.Refuses (flag : Flag) (target : Outcome) : RollError → Prop where
  | number {score : Score} (first : target.leading = .literal score) :
      Refuses flag target (.numberAsPool (.flag flag.kind))
  | overflow (noNumber : ∀ score, target.leading ≠ .literal score) :
      Refuses flag target .overflow
  | empty (kind : flag.kind = .advantage ∨ flag.kind = .disadvantage)
      (isPool : target.pool = .ok []) : Refuses flag target (.emptyPool flag.kind)
  | unsupported {choices : Pool} (kind : flag.kind = .grow ∨ flag.kind = .shrink)
      (isPool : target.pool = .ok choices) : Refuses flag target (.unsupported flag.kind)

/-- A flag never gives one of these reasons. -/
theorem Flag.Refuses.ne {flag : Flag} {target : Outcome} {error : RollError}
    (refuses : flag.Refuses target error) :
    error ≠ .poolAsNumber ∧ error ≠ .numberAsPool .literal ∧ error ≠ .numberAsPool .total ∧
      error ≠ .unsupported .reroll := by
  cases refuses with
  | number first => exact ⟨nofun, nofun, nofun, nofun⟩
  | overflow noNumber => exact ⟨nofun, nofun, nofun, nofun⟩
  | empty kind isPool => exact ⟨nofun, nofun, nofun, nofun⟩
  | unsupported kind isPool =>
    exact ⟨nofun, nofun, nofun, fun same => flag.kind_ne_reroll (RollError.unsupported.inj same)⟩

variable {σ : Type} [Source σ]

namespace Expr

/-- A tree comes to one end. -/
theorem Rolls.unique {tree : Expr} {session after otherAfter : Session σ}
    {outcome otherOutcome : Outcome} (rolls : tree.Rolls session outcome after)
    (other : tree.Rolls session otherOutcome otherAfter) :
    outcome = otherOutcome ∧ after = otherAfter := by
  have same := (roll_eq_ok_iff.mpr rolls).symm.trans (roll_eq_ok_iff.mpr other)
  cases same
  exact ⟨rfl, rfl⟩

theorem Rolls.not_fails {tree : Expr} {session after otherAfter : Session σ} {outcome : Outcome}
    {error : RollError} (rolls : tree.Rolls session outcome after) :
    ¬ tree.Fails session error otherAfter := by
  intro fails
  have same := (roll_eq_ok_iff.mpr rolls).symm.trans (roll_eq_error_iff.mpr fails)
  cases same

/-- Where a target has come to something, its flag fails only if it refuses that. -/
theorem Rolls.refuses {target : Expr} {flag : Flag} {session between after : Session σ}
    {inner : Outcome} {error : RollError} (rolls : target.Rolls session inner between)
    (fails : (Expr.flagged target flag).Fails session error after) : flag.Refuses inner error := by
  have cases := inner.poolOperand_cases rolls.consistent.2
  cases fails with
  | target fails => exact absurd fails rolls.not_fails
  | operand other noOperand =>
    obtain ⟨rfl, -⟩ := rolls.unique other
    obtain ⟨_, _, isOperand⟩ | ⟨noNumber, ⟨_, overflows⟩ | ⟨_, _, _, isOperand, _⟩⟩ := cases
    · cases isOperand.symm.trans noOperand
    · cases overflows.symm.trans noOperand
      exact .overflow noNumber
    · cases isOperand.symm.trans noOperand
  | choice other isOperand refuses =>
    obtain ⟨rfl, -⟩ := rolls.unique other
    obtain ⟨_, first, isNumber⟩ | ⟨_, ⟨_, overflows⟩ | ⟨_, _, isPool, isOther, gives⟩⟩ := cases
    · cases isNumber.symm.trans isOperand
      cases (Operator.evaluate_ofFlag_number flag _).symm.trans refuses
      exact .number first
    · cases overflows.symm.trans isOperand
    · cases isOther.symm.trans isOperand
      obtain ⟨rfl, kind, rfl⟩ | ⟨rfl, kind⟩ := Operator.error_cases_of_evaluate_ofFlag gives refuses
      · exact .empty kind isPool
      · exact .unsupported kind isPool
  | selection other isOperand evaluates isPool unsummed =>
    obtain ⟨rfl, -⟩ := rolls.unique other
    cases Pool.eq_overflow_of_total unsummed
    obtain ⟨_, _, isNumber⟩ | ⟨noNumber, _⟩ := cases
    · cases isNumber.symm.trans isOperand
      cases (Operator.evaluate_ofFlag_number flag _).symm.trans evaluates
    · exact .overflow noNumber

/-- A flag refuses a target that begins with a number. -/
theorem Rolls.fails_of_leading_literal {target : Expr} {flag : Flag} {session between : Session σ}
    {inner : Outcome} {score : Score} (rolls : target.Rolls session inner between)
    (first : inner.leading = .literal score) :
    (Expr.flagged target flag).Fails session (.numberAsPool (.flag flag.kind)) between :=
  .choice rolls (Outcome.poolOperand_of_leading_literal first)
    (Operator.evaluate_ofFlag_number flag inner.total)

/-- A flag that does not do anything yet refuses results. -/
theorem Rolls.fails_of_unsupported {target : Expr} {flag : Flag} {session between : Session σ}
    {inner : Outcome} {choices : Pool} (rolls : target.Rolls session inner between)
    (kind : flag.kind = .grow ∨ flag.kind = .shrink) (isPool : inner.pool = .ok choices) :
    (Expr.flagged target flag).Fails session (.unsupported flag.kind) between := by
  obtain ⟨operand, isOperand, gives⟩ := Outcome.exists_poolOperand_of_pool isPool
  exact .choice rolls isOperand (Operator.evaluate_ofFlag_unsupported gives kind)

/-- What a tree comes to begins with a number exactly if the tree does. -/
theorem Rolls.leading_eq_literal_iff {tree : Expr} {session after : Session σ} {outcome : Outcome}
    (rolls : tree.Rolls session outcome after) :
    (∃ score, outcome.leading = .literal score) ↔ ∃ score, tree.leading = .int score := by
  rw [← rolls.consistent.1, ← Outcome.toExpr_leading]
  cases outcome.leading <;> simp [Outcome.toExpr]

/-- A tree fails over too many dice, a zero to divide by, an overflow, or what one of its flags
refuses. -/
theorem Fails.error_cases {tree : Expr} {session after : Session σ} {error : RollError}
    (fails : tree.Fails session error after) :
    error = .limitExceeded ∨ error = .divisionByZero ∨ error = .overflow ∨
      ∃ flag target, Flag.Refuses flag target error := by
  induction fails with
  | limit excess => exact .inl rfl
  | sum within draws unsummed => exact .inr (.inr (.inl (Pool.eq_overflow_of_total unsummed)))
  | group fails ih | target fails ih | left fails ih | right rolls fails ih => exact ih
  | @operand target flag _ _ _ _ rolls noOperand =>
    have fails : (Expr.flagged target flag).Fails _ _ _ := .operand rolls noOperand
    exact .inr (.inr (.inr ⟨flag, _, rolls.refuses fails⟩))
  | @choice target flag _ _ _ _ _ rolls isOperand refuses =>
    have fails : (Expr.flagged target flag).Fails _ _ _ := .choice rolls isOperand refuses
    exact .inr (.inr (.inr ⟨flag, _, rolls.refuses fails⟩))
  | selection rolls isOperand evaluates isPool unsummed =>
    exact .inr (.inr (.inl (Pool.eq_overflow_of_total unsummed)))
  | operator leftRolls rightRolls refuses =>
    obtain overflow | ⟨zero, _⟩ := BinaryOp.error_cases_of_apply refuses
    · exact .inr (.inr (.inl overflow))
    · exact .inr (.inl zero)

end Expr

namespace Expression

/-- No evaluation, from any source and under any limit, fails because results stand where a number
is needed, because a number or the sum of a choice has no results, or over a flag that no word
stands for.

Where the target of a flag has been rolled, from whatever state of the session, the flag refuses it
in its own name exactly if the target begins with a number, whatever the dice show. A target that
begins with dice or with another flag can only make it fail over an overflow, over having no
results where the best or the worst is asked for, or over a flag that is not supported; and that is
so exactly for the two kinds that are not, unless the results of the target overflow. -/
theorem roll_flag_failures (expression : Expression) (session : Session σ) :
    (∀ error after, expression.roll session = .error error after →
      error ≠ .poolAsNumber ∧ error ≠ .numberAsPool .literal ∧ error ≠ .numberAsPool .total ∧
        error ≠ .unsupported .reroll) ∧
    ∀ (target : Expr) (flag : Flag) (start between : Session σ) (inner : Outcome),
      target.roll start = .ok inner between →
      ((∃ after, (Expr.flagged target flag).roll start =
          .error (.numberAsPool (.flag flag.kind)) after) ↔
        ∃ score, target.leading = .int score) ∧
      ((∀ score, target.leading ≠ .int score) →
        (∀ error after, (Expr.flagged target flag).roll start = .error error after →
          error = .overflow ∨
          (error = .emptyPool flag.kind ∧ inner.pool = .ok [] ∧
            (flag.kind = .advantage ∨ flag.kind = .disadvantage)) ∨
          error = .unsupported flag.kind) ∧
        ((∃ after, (Expr.flagged target flag).roll start =
            .error (.unsupported flag.kind) after) ↔
          (flag.kind = .grow ∨ flag.kind = .shrink) ∧ inner.pool ≠ .error .overflow)) := by
  constructor
  · intro error after failed
    obtain rfl | rfl | rfl | ⟨flag, target, refuses⟩ :=
      (roll_eq_error_iff.mp failed).error_cases
    · exact ⟨nofun, nofun, nofun, nofun⟩
    · exact ⟨nofun, nofun, nofun, nofun⟩
    · exact ⟨nofun, nofun, nofun, nofun⟩
    · exact refuses.ne
  intro target flag start between inner done
  have rolls := Expr.roll_eq_ok_iff.mp done
  simp only [Expr.roll_eq_error_iff]
  refine ⟨⟨?_, fun number => ?_⟩, fun noNumber => ⟨fun error after fails => ?_, ?_, ?_⟩⟩
  · rintro ⟨after, fails⟩
    cases rolls.refuses fails with
    | number first => exact rolls.leading_eq_literal_iff.mp ⟨_, first⟩
  · obtain ⟨score, first⟩ := rolls.leading_eq_literal_iff.mpr number
    exact ⟨between, rolls.fails_of_leading_literal first⟩
  · cases rolls.refuses fails with
    | number first =>
      obtain ⟨score, number⟩ := rolls.leading_eq_literal_iff.mp ⟨_, first⟩
      exact absurd number (noNumber score)
    | overflow _ => exact .inl rfl
    | empty kind isPool => exact .inr (.inl ⟨rfl, isPool, kind⟩)
    | unsupported kind isPool => exact .inr (.inr rfl)
  · rintro ⟨after, fails⟩
    cases rolls.refuses fails with
    | unsupported kind isPool => exact ⟨kind, by rw [isPool]; nofun⟩
  · rintro ⟨kind, fits⟩
    have noLiteral : ∀ score, inner.leading ≠ .literal score := fun score first =>
      (rolls.leading_eq_literal_iff.mp ⟨score, first⟩).elim noNumber
    cases isPool : inner.pool with
    | error error =>
      cases Outcome.eq_overflow_of_pool rolls.consistent.2 noLiteral isPool
      exact absurd isPool fits
    | ok choices => exact ⟨between, rolls.fails_of_unsupported kind isPool⟩

/-- A group that begins with a number has no results, although there is a die in it; and a die has
one, which a flag that is not supported refuses. -/
theorem roll_flag_failures_grouped :
    let five : Score := ⟨5, by decide⟩
    let die : Expr := .dice ⟨.one, .numbered .one⟩
    let number : Expr := .group "5+d1" (.binary .add (.int five) die)
    let results : Expr := .group "d1" die
    let session := Session.start none Loaded.lowest
    parse "(5+d1)!dis" = .ok ⟨"(5+d1)!dis", .flagged number ⟨.dis, none⟩⟩ ∧
      parse "(d1)!grow" = .ok ⟨"(d1)!grow", .flagged results ⟨.grow, none⟩⟩ ∧
      (∃ after, (Expr.flagged number ⟨.dis, none⟩).roll session =
        .error (.numberAsPool (.flag .disadvantage)) after) ∧
      ∃ after, (Expr.flagged results ⟨.grow, none⟩).roll session =
        .error (.unsupported .grow) after := by
  intro five die number results session
  have parsed : parse "(5+d1)!dis" = .ok ⟨"(5+d1)!dis", .flagged number ⟨.dis, none⟩⟩ := by
    decide +kernel
  have otherParsed : parse "(d1)!grow" = .ok ⟨"(d1)!grow", .flagged results ⟨.grow, none⟩⟩ := by
    decide +kernel
  have failures := (roll_flag_failures ⟨"(5+d1)!dis", number⟩ session).2
  obtain ⟨inner, between, done⟩ :
      ∃ inner between, number.roll session = .ok inner between := ⟨_, _, rfl⟩
  obtain ⟨other, otherBetween, choices, otherDone, isPool⟩ :
      ∃ other between choices, results.roll session = .ok other between ∧
        other.pool = .ok choices := ⟨_, _, _, rfl, rfl⟩
  have fits : other.pool ≠ .error .overflow := by
    rw [isPool]
    nofun
  have noNumber (score : Score) : results.leading ≠ .int score := Expr.noConfusion
  refine ⟨parsed, otherParsed, ?_, ?_⟩
  · exact (failures number ⟨.dis, none⟩ session between inner done).1.mpr ⟨five, rfl⟩
  · exact ((failures results ⟨.grow, none⟩ session otherBetween other otherDone).2
      noNumber).2.mpr ⟨.inl rfl, fits⟩

end Expression

end Tabletop
