import Mathlib.Tactic.Common

/-!
# Programs with a state and errors

What one step of such a program does, as equations that `simp` uses to run a program.
-/

namespace StateErrors

variable {ε σ α β : Type} (s : σ)

@[simp]
theorem run_pure (a : α) :
  (pure a : EStateM ε σ α) s = .ok a s
  := rfl

@[simp]
theorem run_bind (x : EStateM ε σ α) (f : α → EStateM ε σ β) :
  (x >>= f) s = match x s with
    | .ok a s' => f a s'
    | .error e s' => .error e s'
  := rfl

@[simp]
theorem run_get :
  (get : EStateM ε σ σ) s = .ok s s
  := rfl

@[simp]
theorem run_set (s' : σ) :
  (set s' : EStateM ε σ PUnit) s = .ok ⟨⟩ s'
  := rfl

@[simp]
theorem run_modify (f : σ → σ) :
  (modify f : EStateM ε σ PUnit) s = .ok ⟨⟩ (f s)
  := rfl

@[simp]
theorem run_throw (e : ε) :
  (throw e : EStateM ε σ α) s = .error e s
  := rfl

end StateErrors
