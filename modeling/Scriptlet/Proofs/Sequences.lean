/-! # One computation after the other

Reading, checking and running are computations with a state that end with a result or a fault. A
sequence of two gives a result exactly if both do, and it ends with the first fault.
-/
namespace Scriptlet

variable {ε σ α β : Type}

/-- The result of a computation, if it has given one. -/
def result? : EStateM.Result ε σ α → Option α
  | .ok a _ => some a
  | .error _ _ => none

/-- The fault that a computation has ended with, if any. -/
def fault? : EStateM.Result ε σ α → Option ε
  | .ok _ _ => none
  | .error e _ => some e

/-- The state that a computation has ended in. -/
def lastState : EStateM.Result ε σ α → σ
  | .ok _ s | .error _ s => s

theorem EStateM.bind_of_ok {x : EStateM ε σ α} {f : α → EStateM ε σ β} {s s' : σ} {a : α}
    (h : x s = .ok a s') : (x >>= f) s = f a s' := by
  simp only [bind, EStateM.bind, h]

theorem EStateM.bind_of_error {x : EStateM ε σ α} {f : α → EStateM ε σ β} {s s' : σ} {e : ε}
    (h : x s = .error e s') : (x >>= f) s = .error e s' := by
  simp only [bind, EStateM.bind, h]

/-- A sequence gives a result exactly if both of its parts do. -/
theorem EStateM.bind_eq_ok {x : EStateM ε σ α} {f : α → EStateM ε σ β} {s s' : σ} {b : β} :
    (x >>= f) s = .ok b s' ↔ ∃ a t, x s = .ok a t ∧ f a t = .ok b s' := by
  constructor
  · intro h
    cases hx : x s with
    | ok a t => exact ⟨a, t, rfl, by rwa [EStateM.bind_of_ok hx] at h⟩
    | error e t => rw [EStateM.bind_of_error hx] at h; cases h
  · rintro ⟨a, t, hx, hf⟩
    rw [EStateM.bind_of_ok hx, hf]

theorem EStateM.pure_apply (a : α) (s : σ) : (pure a : EStateM ε σ α) s = .ok a s := rfl

theorem EStateM.get_apply (s : σ) : (get : EStateM ε σ σ) s = .ok s s := rfl

theorem EStateM.modify_apply (f : σ → σ) (s : σ) :
    (modify f : EStateM ε σ PUnit) s = .ok ⟨⟩ (f s) := rfl

theorem EStateM.pure_eq_ok {a b : α} {s s' : σ} :
    (pure a : EStateM ε σ α) s = .ok b s' ↔ a = b ∧ s = s' := by
  rw [EStateM.pure_apply, EStateM.Result.ok.injEq]

end Scriptlet
