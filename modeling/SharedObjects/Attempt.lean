import SharedObjects.Fault
/-!
Actions that may fail on the way. An action gives a result or a fault, and either way a state to go
on with: what it changed before it failed stays changed. Steps in sequence stop at the first fault.
-/
set_option autoImplicit false

namespace SharedObjects

/-- Changes a state, and gives a result or a fault. -/
abbrev Attempt (σ α : Type) := EStateM Fault σ α

namespace Attempt

variable {σ α β : Type}

def demand : Except Fault α → Attempt σ α
  | .ok a => pure a
  | .error fault => throw fault

def outcome (action : Attempt σ α) (s : σ) : Except Fault α × σ :=
  match action s with
  | .ok a s => (.ok a, s)
  | .error fault s => (.error fault, s)

@[simp] theorem outcome_pure (a : α) (s : σ) : outcome (pure a) s = (.ok a, s) := rfl

@[simp] theorem outcome_demand (result : Except Fault α) (s : σ) :
    outcome (demand result) s = (result, s) := by
  cases result <;> rfl

theorem outcome_bind (first : Attempt σ α) (second : α → Attempt σ β) (s : σ) :
    outcome (first >>= second) s =
      match outcome first s with
      | (.ok a, s) => outcome (second a) s
      | (.error fault, s) => (.error fault, s) := by
  simp only [outcome, bind, EStateM.bind]
  cases first s <;> rfl

end Attempt

end SharedObjects
