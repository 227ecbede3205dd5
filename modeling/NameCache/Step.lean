/-
  Operations that may stop on a fault.

  An operation that stops leaves the state as the fault found it, not as it was when the operation
  began.  So "nothing has changed" after a fault is a fact about the operation, to be shown.

  `focus` carries an operation on a part of a state over to the whole; the rest of the state stays
  as it is, whether the operation stops or not.
-/
import NameCache.Fault

namespace NameCache

/-- An operation on a state `σ` that gives an `α` or stops on a fault. -/
abbrev Step (σ α : Type) := EStateM Fault σ α

namespace Step

variable {σ τ α : Type}

/-- An operation on a part of the state, as an operation on the whole. -/
def focus (part : σ → τ) (replace : σ → τ → σ) (op : Step τ α) : Step σ α := fun s =>
  match op (part s) with
  | .ok a t => .ok a (replace s t)
  | .error fault t => .error fault (replace s t)

/-- A result that may be a fault, as an operation that changes nothing. -/
def require : Except Fault α → Step σ α
  | .ok a => pure a
  | .error fault => throw fault

end Step

end NameCache
