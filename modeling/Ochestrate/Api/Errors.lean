import Ochestrate.Framework.Fault

/-!
# Error responses

An endpoint answers an `HTTPException` with its status and detail, and any
exception that it does not handle with an internal error.
-/

namespace Ochestrate

structure HttpError where
  statusCode : Nat
  detail : String
  deriving DecidableEq, Repr

def internalServerError : HttpError := ⟨500, "Internal Server Error"⟩

/-- A program whose exceptions become error responses. -/
def answering {σ α : Type} (handler : Exc → HttpError) (x : EStateM Exc σ α) : EStateM HttpError σ α := fun s =>
  match x s with
  | .ok a s' => .ok a s'
  | .error exc s' => .error (handler exc) s'

variable {σ α : Type} {handler : Exc → HttpError} {x : EStateM Exc σ α} {s : σ}

theorem finalState_answering : finalState (answering handler x s) = finalState (x s) := by
  unfold answering
  cases x s <;> rfl

end Ochestrate
