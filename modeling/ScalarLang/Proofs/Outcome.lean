/-!
# Outcomes of steps

Reading, lowering and running are all made of steps that give a value or a failure
together with the state they leave.  The outcome of two steps in turn is found from
the outcome of the first.
-/

set_option autoImplicit false

namespace ScalarLang

section Outcome

variable {ε σ α β : Type} {action : EStateM ε σ α} {next : α → EStateM ε σ β} {state : σ}

theorem bind_of_ok {value : α} {middle : σ} (outcome : action state = .ok value middle) :
    (action >>= next) state = next value middle := by
  change EStateM.bind action next state = _
  simp only [EStateM.bind, outcome]

theorem bind_of_error {failure : ε} {middle : σ} (outcome : action state = .error failure middle) :
    (action >>= next) state = .error failure middle := by
  change EStateM.bind action next state = _
  simp only [EStateM.bind, outcome]

theorem bind_eq_ok_iff {value : β} {after : σ} :
    (action >>= next) state = .ok value after ↔
      ∃ first middle, action state = .ok first middle ∧ next first middle = .ok value after := by
  cases outcome : action state with
  | ok first middle =>
      rw [bind_of_ok outcome]
      constructor
      · intro success
        exact ⟨first, middle, rfl, success⟩
      · rintro ⟨_, _, same, success⟩
        cases same
        exact success
  | error failure middle =>
      rw [bind_of_error outcome]
      simp

theorem bind_eq_error_iff {failure : ε} {after : σ} :
    (action >>= next) state = .error failure after ↔
      action state = .error failure after ∨
        ∃ first middle, action state = .ok first middle ∧
          next first middle = .error failure after := by
  cases outcome : action state with
  | ok first middle =>
      rw [bind_of_ok outcome]
      constructor
      · intro fails
        exact .inr ⟨first, middle, rfl, fails⟩
      · rintro (same | ⟨_, _, same, fails⟩)
        · cases same
        · cases same
          exact fails
  | error failure middle =>
      rw [bind_of_error outcome]
      simp

theorem pure_eq_ok_iff {value result : α} {after : σ} :
    (pure value : EStateM ε σ α) state = .ok result after ↔ value = result ∧ state = after := by
  change EStateM.Result.ok value state = _ ↔ _
  simp

theorem get_eq_ok_iff {value after : σ} :
    (get : EStateM ε σ σ) state = .ok value after ↔ state = value ∧ state = after := by
  change EStateM.Result.ok state state = _ ↔ _
  simp

theorem get_bind {next : σ → EStateM ε σ β} :
    ((get : EStateM ε σ σ) >>= next) state = next state state := rfl

/-- A test that computes to true shows that there is a value and what it is like. -/
theorem exists_ok_of_any {result : Except ε α} {test : α → Bool}
    (found : result.toOption.any test = true) :
    ∃ value, result = .ok value ∧ test value = true := by
  cases result with
  | error failure => cases found
  | ok value => exact ⟨value, rfl, found⟩

end Outcome

end ScalarLang
