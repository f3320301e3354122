/-!
# Actions that may fail

What an action that is made of two others does is what the second does where the first
stopped, unless the first has failed.
-/

set_option autoImplicit false

namespace Calculator

section Results

variable {ε ε' β γ : Type} {result : Except ε β}

theorem except_bind_eq_ok {next : β → Except ε γ} {given : γ} :
    result >>= next = .ok given ↔ ∃ value, result = .ok value ∧ next value = .ok given := by
  cases result with
  | error error => simp [bind, Except.bind]
  | ok value => simp [bind, Except.bind]

theorem except_bind_eq_error {next : β → Except ε γ} {error : ε} :
    result >>= next = .error error ↔
      result = .error error ∨ ∃ value, result = .ok value ∧ next value = .error error := by
  cases result with
  | error other => simp [bind, Except.bind]
  | ok value => simp [bind, Except.bind]

theorem mapError_eq_ok {f : ε → ε'} {value : β} :
    result.mapError f = .ok value ↔ result = .ok value := by
  cases result with
  | error error =>
      change Except.error (f error) = .ok value ↔ _
      simp
  | ok other =>
      change Except.ok other = .ok value ↔ _
      simp

end Results

section States

variable {ε σ β γ : Type} {action : EStateM ε σ β} {goOn : β → EStateM ε σ γ}
  {start middle after : σ}

theorem bind_of_ok {value : β} (ran : action start = .ok value middle) :
    (action >>= goOn) start = goOn value middle := by
  change EStateM.bind action goOn start = _
  rw [EStateM.bind, ran]

theorem bind_of_error {error : ε} (failed : action start = .error error after) :
    (action >>= goOn) start = .error error after := by
  change EStateM.bind action goOn start = _
  rw [EStateM.bind, failed]

theorem bind_eq_ok {given : γ} :
    (action >>= goOn) start = .ok given after ↔
      ∃ value middle, action start = .ok value middle ∧ goOn value middle = .ok given after := by
  cases ran : action start with
  | error error middle => simp [bind_of_error ran]
  | ok value middle => simp [bind_of_ok ran, and_assoc]

theorem bind_eq_error {error : ε} :
    (action >>= goOn) start = .error error after ↔
      action start = .error error after ∨
        ∃ value middle, action start = .ok value middle ∧
          goOn value middle = .error error after := by
  cases ran : action start with
  | error other middle => simp [bind_of_error ran]
  | ok value middle => simp [bind_of_ok ran, and_assoc]

variable {result : Except ε β}

theorem ofExcept_eq_ok {value : β} :
    (MonadExcept.ofExcept result : EStateM ε σ β) start = .ok value after ↔
      result = .ok value ∧ after = start := by
  cases result with
  | error error =>
      change EStateM.Result.error error start = .ok value after ↔ _
      simp
  | ok other =>
      change EStateM.Result.ok other start = .ok value after ↔ _
      simp [eq_comm]

theorem ofExcept_eq_error {error : ε} :
    (MonadExcept.ofExcept result : EStateM ε σ β) start = .error error after ↔
      result = .error error ∧ after = start := by
  cases result with
  | error other =>
      change EStateM.Result.error other start = .error error after ↔ _
      simp [eq_comm]
  | ok value =>
      change EStateM.Result.ok value start = .error error after ↔ _
      simp

theorem ofExcept_bind_eq_ok {given : γ} :
    (MonadExcept.ofExcept result >>= goOn) start = .ok given after ↔
      ∃ value, result = .ok value ∧ goOn value start = .ok given after := by
  simp [bind_eq_ok, ofExcept_eq_ok, and_assoc]

theorem ofExcept_bind_eq_error {error : ε} :
    (MonadExcept.ofExcept result >>= goOn) start = .error error after ↔
      result = .error error ∧ after = start ∨
        ∃ value, result = .ok value ∧ goOn value start = .error error after := by
  simp [bind_eq_error, ofExcept_eq_ok, ofExcept_eq_error, and_assoc]

end States

end Calculator
