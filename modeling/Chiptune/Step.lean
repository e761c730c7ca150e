import Chiptune.Fault

/-!
# Steps

A step changes a state and yields a value or fails. A failed step leaves a state
as well: what it had changed before the failure stays changed.
-/

namespace Chiptune

/-- A step on `σ` that yields `α` or fails with a fault. -/
abbrev Step (σ α : Type) := EStateM Fault σ α

namespace Step

variable {ε σ τ α : Type}

/-- A step that only decides and changes nothing. -/
def decide (outcome : Except ε α) : EStateM ε σ α := fun state =>
  match outcome with
  | .ok value => .ok value state
  | .error fault => .error fault state

/-- A step that replaces the state unless it fails. -/
def advance (outcome : σ → Except ε (α × σ)) : EStateM ε σ α := fun state =>
  match outcome state with
  | .ok (value, next) => .ok value next
  | .error fault => .error fault state

/-- A step on a part of the state. -/
def on (part : σ → τ) (put : τ → σ → σ) (step : EStateM ε τ α) : EStateM ε σ α := fun state =>
  match step (part state) with
  | .ok value next => .ok value (put next state)
  | .error fault next => .error fault (put next state)

end Step

end Chiptune
