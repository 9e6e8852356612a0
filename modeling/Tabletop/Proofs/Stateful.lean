import Mathlib

/-!
# Stateful computations

A computation with a state ends with a result or with a failure, and leaves the state in either
case. These are the ends of one that is put together from others, or that reports its failures in
another way.
-/

namespace Tabletop.Stateful

variable {ε ε' ε'' σ α β : Type} {state after : σ}

/-! ## One part after another -/

/-- A computation succeeds if its first part does and the rest does from there. -/
theorem bind_eq_ok_iff {first : EStateM ε σ α} {next : α → EStateM ε σ β} {value : β} :
    (first >>= next) state = .ok value after ↔
      ∃ middle between, first state = .ok middle between ∧
        next middle between = .ok value after := by
  change EStateM.bind first next state = _ ↔ _
  unfold EStateM.bind
  cases first state with
  | ok middle between =>
    constructor
    · intro done
      exact ⟨middle, between, rfl, done⟩
    · rintro ⟨_, _, same, done⟩
      cases same
      exact done
  | error error =>
    constructor
    · intro done
      cases done
    · rintro ⟨_, _, same, _⟩
      cases same

theorem pure_eq_ok_iff {value other : α} :
    (pure value : EStateM ε σ α) state = .ok other after ↔ value = other ∧ state = after := by
  constructor
  · intro done
    cases done
    exact ⟨rfl, rfl⟩
  · rintro ⟨rfl, rfl⟩
    rfl

/-- A computation fails in its first part, or in the rest after the first part succeeds. -/
theorem bind_eq_error_iff {first : EStateM ε σ α} {next : α → EStateM ε σ β} {error : ε} :
    (first >>= next) state = .error error after ↔
      first state = .error error after ∨
        ∃ middle between, first state = .ok middle between ∧
          next middle between = .error error after := by
  change EStateM.bind first next state = _ ↔ _
  unfold EStateM.bind
  cases first state with
  | ok middle between =>
    constructor
    · intro failed
      exact .inr ⟨middle, between, rfl, failed⟩
    · rintro (failed | ⟨_, _, same, failed⟩)
      · cases failed
      · cases same
        exact failed
  | error fault between =>
    constructor
    · intro failed
      cases failed
      exact .inl rfl
    · rintro (failed | ⟨_, _, same, _⟩)
      · cases failed
        rfl
      · cases same

/-- If only a value is made of its result, a computation fails where its first part does. -/
theorem bind_pure_eq_error_iff {first : EStateM ε σ α} {make : α → β} {error : ε} :
    (first >>= fun value => pure (make value)) state = .error error after ↔
      first state = .error error after := by
  rw [bind_eq_error_iff]
  constructor
  · rintro (failed | ⟨_, _, _, failed⟩)
    · exact failed
    · cases failed
  · exact .inl

/-! ## Failures reported in another way -/

theorem adaptExcept_throw (change : ε → ε') (error : ε) :
    (throw error : EStateM ε σ α).adaptExcept change = throw (change error) := rfl

theorem adaptExcept_bind (change : ε → ε') (first : EStateM ε σ α) (next : α → EStateM ε σ β) :
    (first >>= next).adaptExcept change =
      first.adaptExcept change >>= fun value => (next value).adaptExcept change := by
  funext state
  change EStateM.adaptExcept change (EStateM.bind first next) state =
    EStateM.bind (first.adaptExcept change) _ state
  cases start : first state <;> simp only [EStateM.adaptExcept, EStateM.bind, start]

theorem adaptExcept_adaptExcept (change : ε → ε') (again : ε' → ε'') (work : EStateM ε σ α) :
    (work.adaptExcept change).adaptExcept again = work.adaptExcept (again ∘ change) := by
  funext state
  cases done : work state <;> simp only [EStateM.adaptExcept, done, Function.comp_apply]

theorem adaptExcept_eq_ok_iff {change : ε → ε'} {work : EStateM ε σ α} {value : α} :
    work.adaptExcept change state = .ok value after ↔ work state = .ok value after := by
  unfold EStateM.adaptExcept
  cases work state <;> simp

theorem adaptExcept_eq_error_iff {change : ε → ε'} {work : EStateM ε σ α} {error : ε'} :
    work.adaptExcept change state = .error error after ↔
      ∃ cause, work state = .error cause after ∧ change cause = error := by
  unfold EStateM.adaptExcept
  cases work state with
  | ok value between => simp
  | error fault between =>
    constructor
    · intro failed
      cases failed
      exact ⟨fault, rfl, rfl⟩
    · rintro ⟨_, same, rfl⟩
      cases same
      rfl

/-! ## Computations in related states -/

/-- Both ends are the same, except that the states are only related. -/
inductive Agree (related : σ → σ → Prop) :
    EStateM.Result ε σ α → EStateM.Result ε σ α → Prop where
  | ok {value : α} {left right : σ} (same : related left right) :
      Agree related (.ok value left) (.ok value right)
  | error {error : ε} {left right : σ} (same : related left right) :
      Agree related (.error error left) (.error error right)

/-- In related states the computation comes to the same end. -/
def Respects (related : σ → σ → Prop) (work : EStateM ε σ α) : Prop :=
  ∀ left right, related left right → Agree related (work left) (work right)

namespace Respects

variable {related : σ → σ → Prop}

theorem pure (value : α) : Respects related (Pure.pure value : EStateM ε σ α) :=
  fun _ _ same => .ok same

theorem throw (error : ε) : Respects related (MonadExcept.throw error : EStateM ε σ α) :=
  fun _ _ same => .error same

theorem bind {first : EStateM ε σ α} {next : α → EStateM ε σ β} (start : Respects related first)
    (rest : ∀ value, Respects related (next value)) : Respects related (first >>= next) := by
  intro left right same
  change Agree related (EStateM.bind first next left) (EStateM.bind first next right)
  unfold EStateM.bind
  have agree := start left right same
  generalize first left = leftEnd, first right = rightEnd at agree ⊢
  cases agree with
  | ok same => exact rest _ _ _ same
  | error same => exact .error same

theorem adaptExcept {work : EStateM ε σ α} (respects : Respects related work)
    (change : ε → ε') : Respects related (work.adaptExcept change) := by
  intro left right same
  unfold EStateM.adaptExcept
  have agree := respects left right same
  generalize work left = leftEnd, work right = rightEnd at agree ⊢
  cases agree with
  | ok same => exact .ok same
  | error same => exact .error same

variable {work : EStateM ε σ α} {left right : σ}

theorem ok (respects : Respects related work) (same : related left right) {value : α}
    (done : work left = .ok value after) :
    ∃ other, work right = .ok value other ∧ related after other := by
  have agree := respects left right same
  rw [done] at agree
  generalize work right = rightEnd at agree ⊢
  cases agree with
  | ok next => exact ⟨_, rfl, next⟩

theorem error (respects : Respects related work) (same : related left right) {error : ε}
    (failed : work left = .error error after) :
    ∃ other, work right = .error error other ∧ related after other := by
  have agree := respects left right same
  rw [failed] at agree
  generalize work right = rightEnd at agree ⊢
  cases agree with
  | error next => exact ⟨_, rfl, next⟩

end Respects

end Tabletop.Stateful
