/-!
# Statements that may raise

A method that raises keeps what it had already written: its effect is a
function to `EStateM.Result`, whose `error` carries the state at the raise.
`faulty f act` is a call to a collaborator whose effect is `act`, under the
fault `f`: it returns, or it raises before or after the effect took place.
-/

namespace Ochestrate

universe u

/-- The exceptions the source tells apart. -/
inductive ExcType | permissionError | valueError | typeError | integrityError | fileNotFoundError | osError | other
  deriving DecidableEq, Repr

/-- An exception; `message` is `str(exc)`. -/
structure Exc where
  type : ExcType
  message : String
  deriving DecidableEq, Repr

/-- How one call of a collaborator goes. -/
inductive Fault (ε : Type u)
  | none
  | before (exc : ε)
  | after (exc : ε)
  deriving DecidableEq, Repr

/-- The call raises. -/
def Fault.raises {ε : Type u} : Fault ε → Bool
  | none => false
  | before _ => true
  | after _ => true

/-- The effect of the call took place. -/
def Fault.takesEffect {ε : Type u} : Fault ε → Bool
  | none => true
  | before _ => false
  | after _ => true

/-- A call with effect `act`, under a fault. -/
def faulty {ε : Type u} {σ : Type u} (f : Fault ε) (act : σ → σ) : EStateM ε σ PUnit := fun s =>
  match f with
  | .none => .ok ⟨⟩ (act s)
  | .before exc => .error exc s
  | .after exc => .error exc (act s)

/-- A call that runs `x`, under a fault. -/
def underFault {ε σ α : Type u} (f : Fault ε) (x : EStateM ε σ α) : EStateM ε σ α := fun s =>
  match f with
  | .none => x s
  | .before exc => .error exc s
  | .after exc =>
    match x s with
    | .ok _ s' => .error exc s'
    | .error exc' s' => .error exc' s'

/-- The state a statement ends in, whether it returned or raised. -/
def finalState {ε σ α : Type u} : EStateM.Result ε σ α → σ
  | .ok _ s => s
  | .error _ s => s

/-- The statement returned. -/
def returned {ε σ α : Type u} : EStateM.Result ε σ α → Bool
  | .ok .. => true
  | .error .. => false

variable {ε σ α β : Type u} {s s' : σ}

@[simp] theorem finalState_ok (a : α) (s : σ) : finalState (.ok a s : EStateM.Result ε σ α) = s := rfl

@[simp] theorem finalState_error (e : ε) (s : σ) : finalState (.error e s : EStateM.Result ε σ α) = s := rfl

@[simp] theorem returned_ok (a : α) (s : σ) : returned (.ok a s : EStateM.Result ε σ α) = true := rfl

@[simp] theorem returned_error (e : ε) (s : σ) : returned (.error e s : EStateM.Result ε σ α) = false := rfl

theorem bind_ok {x : EStateM ε σ α} {a : α} (h : x s = .ok a s') (f : α → EStateM ε σ β) :
    (x >>= f) s = f a s' := by
  simp only [bind, EStateM.bind, h]

theorem bind_error {x : EStateM ε σ α} {e : ε} (h : x s = .error e s') (f : α → EStateM ε σ β) :
    (x >>= f) s = .error e s' := by
  simp only [bind, EStateM.bind, h]

@[simp] theorem underFault_none (x : EStateM ε σ α) : underFault .none x = x := rfl

/-- A call that raises has taken effect or not. -/
theorem underFault_raises {f : Fault ε} (h : f.raises = true) {x : EStateM ε σ α} {a : α} (hx : x s = .ok a s') :
    ∃ e, underFault f x s = .error e (if f.takesEffect then s' else s) := by
  cases f with
  | none => cases h
  | before e => exact ⟨e, rfl⟩
  | after e => exact ⟨e, by simp only [underFault, hx]; rfl⟩

theorem ofExcept_ok_bind (a : α) (f : α → EStateM ε σ β) : (MonadExcept.ofExcept (.ok a) >>= f) s = f a s := rfl

theorem ofExcept_error_bind (e : ε) (f : α → EStateM ε σ β) :
    (MonadExcept.ofExcept (.error e) >>= f) s = .error e s := rfl

theorem get_bind (g : σ → EStateM ε σ β) : ((get : EStateM ε σ σ) >>= g) s = g s s := rfl

theorem modify_bind (f : σ → σ) (g : PUnit → EStateM ε σ β) :
    ((modify f : EStateM ε σ PUnit) >>= g) s = g ⟨⟩ (f s) := rfl

theorem tryCatch_eq (x : EStateM ε σ α) (f : ε → EStateM ε σ α) (s : σ) :
    tryCatch x f s = match x s with
      | .ok a s' => .ok a s'
      | .error e s' => f e s' := by
  change EStateM.tryCatch x f s = _
  delta EStateM.tryCatch
  dsimp only
  cases x s <;> rfl

theorem tryCatch_ok {x : EStateM ε σ α} {a : α} (h : x s = .ok a s') (f : ε → EStateM ε σ α) :
    tryCatch x f s = .ok a s' := by
  rw [tryCatch_eq, h]

/-- The handler starts from the state at the raise. -/
theorem tryCatch_error {x : EStateM ε σ α} {e : ε} (h : x s = .error e s') (f : ε → EStateM ε σ α) :
    tryCatch x f s = f e s' := by
  rw [tryCatch_eq, h]

theorem finalState_faulty (f : Fault ε) (act : σ → σ) (s : σ) :
    finalState (faulty f act s) = if f.takesEffect then act s else s := by
  cases f <;> rfl

theorem faulty_returns {f : Fault ε} (h : f.raises = false) (act : σ → σ) :
    faulty f act s = .ok ⟨⟩ (act s) := by
  cases f <;> first | rfl | cases h

theorem faulty_raises {f : Fault ε} (h : f.raises = true) (act : σ → σ) :
    ∃ e s', faulty f act s = .error e s' ∧ (s' = s ∨ s' = act s) := by
  cases f with
  | none => cases h
  | before e => exact ⟨e, s, rfl, .inl rfl⟩
  | after e => exact ⟨e, act s, rfl, .inr rfl⟩

end Ochestrate
