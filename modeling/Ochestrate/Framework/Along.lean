import Ochestrate.Framework.Fault

/-!
# What a program may do to its state

`Along R x Q` says that the program `x` moves the state along the relation
`R`, whether it returns or raises, and that a value it returns satisfies `Q`.
For a reflexive and transitive `R` there is one rule for each construct
(`Along.pure`, `Along.throw`, `Along.bind`, `Along.tryCatch`), so a program is
along `R` because its statements are; `Along.seq` composes two relations. `zoomed` runs a program over a part of
the state; `Along.zoomed` is its rule.
-/

namespace Ochestrate

universe u

variable {ε σ α β : Type u}

/-- `x` moves the state along `R`, and returns values in `Q`. -/
def Along (R : σ → σ → Prop) (x : EStateM ε σ α) (Q : α → Prop) : Prop :=
  ∀ s, match x s with
    | .ok a s' => R s s' ∧ Q a
    | .error _ s' => R s s'

namespace Along

variable {R : σ → σ → Prop} {Q : α → Prop} {P : β → Prop} {x : EStateM ε σ α}

theorem finalState (h : Along R x Q) (s : σ) : R s (finalState (x s)) := by
  have hs := h s
  cases hx : x s with
  | ok a s' => rw [hx] at hs; exact hs.1
  | error e s' => rw [hx] at hs; exact hs

theorem of_finalState (h : ∀ s, R s (Ochestrate.finalState (x s))) : Along R x (fun _ => True) := by
  intro s
  have hs := h s
  cases hx : x s with
  | ok a s' => rw [hx] at hs; exact ⟨hs, trivial⟩
  | error e s' => rw [hx] at hs; exact hs

/-- A weaker condition on the value. -/
theorem imp {Q' : α → Prop} (h : Along R x Q) (hq : ∀ a, Q a → Q' a) : Along R x Q' := by
  intro s
  have hs := h s
  cases hx : x s with
  | ok a s' => rw [hx] at hs; exact ⟨hs.1, hq a hs.2⟩
  | error e s' => rw [hx] at hs; exact hs

theorem pure (hr : ∀ s, R s s) {a : α} (ha : Q a) : Along R (pure a : EStateM ε σ α) Q :=
  fun s => ⟨hr s, ha⟩

theorem throw (hr : ∀ s, R s s) (e : ε) : Along R (throw e : EStateM ε σ α) Q := hr

theorem get (hr : ∀ s, R s s) : Along R (get : EStateM ε σ σ) (fun _ => True) :=
  fun s => ⟨hr s, trivial⟩

theorem modify {f : σ → σ} (hf : ∀ s, R s (f s)) :
    Along R (modify f : EStateM ε σ PUnit) (fun _ => True) :=
  fun s => ⟨hf s, trivial⟩

theorem faulty (hr : ∀ s, R s s) (f : Fault ε) {act : σ → σ} (hact : ∀ s, R s (act s)) :
    Along R (faulty f act) (fun _ => True) := by
  intro s
  cases f with
  | none => exact ⟨hact s, trivial⟩
  | before e => exact hr s
  | after e => exact hact s

theorem ofExcept (hr : ∀ s, R s s) (x : Except ε α) :
    Along R (MonadExcept.ofExcept x : EStateM ε σ α) (fun a => x = .ok a) := by
  cases x with
  | error e => exact hr
  | ok a => exact fun s => ⟨hr s, rfl⟩

/-- The second program is along another relation. -/
theorem seq {R' R'' : σ → σ → Prop} (ht : ∀ ⦃a b c⦄, R a b → R' b c → R'' a c) (hr : ∀ ⦃a b⦄, R a b → R'' a b)
    (h : Along R x Q) {f : α → EStateM ε σ β} (hf : ∀ a, Q a → Along R' (f a) P) : Along R'' (x >>= f) P := by
  intro s
  have hs := h s
  cases hx : x s with
  | error e s' =>
    rw [hx] at hs
    rw [bind_error hx]
    exact hr hs
  | ok a s' =>
    rw [hx] at hs
    rw [bind_ok hx]
    have hs' := hf a hs.2 s'
    cases hfx : f a s' with
    | ok b s'' => rw [hfx] at hs'; exact ⟨ht hs.1 hs'.1, hs'.2⟩
    | error e s'' => rw [hfx] at hs'; exact ht hs.1 hs'

theorem bind (ht : ∀ ⦃a b c⦄, R a b → R b c → R a c) (h : Along R x Q) {f : α → EStateM ε σ β}
    (hf : ∀ a, Q a → Along R (f a) P) : Along R (x >>= f) P :=
  seq ht (fun _ _ hr => hr) h hf

/-- What follows a program moves the state on along `R`. -/
theorem after (hr : ∀ s, R s s) {f : α → EStateM ε σ β} (hf : ∀ a, Along R (f a) P) (s : σ) :
    R (Ochestrate.finalState (x s)) (Ochestrate.finalState ((x >>= f) s)) := by
  cases hx : x s with
  | ok a s' => rw [bind_ok hx]; exact (hf a).finalState s'
  | error e s' => rw [bind_error hx]; exact hr s'

/-- What the block did before it raised counts as well. -/
theorem tryCatch (ht : ∀ ⦃a b c⦄, R a b → R b c → R a c) (h : Along R x Q) {f : ε → EStateM ε σ α}
    (hf : ∀ e, Along R (f e) Q) : Along R (tryCatch x f) Q := by
  intro s
  have hs := h s
  cases hx : x s with
  | ok a s' =>
    rw [hx] at hs
    rw [tryCatch_ok hx]
    exact hs
  | error e s' =>
    rw [hx] at hs
    rw [tryCatch_error hx]
    have hs' := hf e s'
    cases hfx : f e s' with
    | ok b s'' => rw [hfx] at hs'; exact ⟨ht hs hs'.1, hs'.2⟩
    | error e s'' => rw [hfx] at hs'; exact ht hs hs'

end Along

/-! ## Part of the state -/

section Zoom

variable {τ : Type u}

/-- Run a program over the part of the state that `view` reads and `put`
writes. -/
def zoomed (view : σ → τ) (put : σ → τ → σ) (x : EStateM ε τ α) : EStateM ε σ α := fun s =>
  match x (view s) with
  | .ok a t => .ok a (put s t)
  | .error e t => .error e (put s t)

theorem zoomed_ok {view : σ → τ} {put : σ → τ → σ} {x : EStateM ε τ α} {s : σ} {a : α} {t : τ}
    (h : x (view s) = .ok a t) : zoomed view put x s = .ok a (put s t) := by
  simp only [zoomed, h]

theorem Along.zoomed {R : σ → σ → Prop} {view : σ → τ} {put : σ → τ → σ} (hput : ∀ s t, R s (put s t))
    (x : EStateM ε τ α) : Along R (zoomed view put x) (fun _ => True) := by
  intro s
  unfold Ochestrate.zoomed
  cases hx : x (view s) with
  | ok a t => exact ⟨hput s t, trivial⟩
  | error e t => exact hput s t

end Zoom

end Ochestrate
