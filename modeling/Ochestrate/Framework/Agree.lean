import Ochestrate.Framework.Fault

/-!
# Two programs that answer the same

`Agrees R x y Q` compares two programs over states of their own: run from states
that `R` relates, they return the same value, which satisfies `Q`, or raise the
same exception, and end in related states. There is one rule for each construct,
so two programs agree because their statements do.
-/

namespace Ochestrate

universe u

variable {ε σ τ α β : Type u}

/-- Two results with the same value or exception, in related states. -/
inductive Agreement (R : σ → τ → Prop) (Q : α → Prop) : EStateM.Result ε σ α → EStateM.Result ε τ α → Prop
  | ok {a : α} {s : σ} {t : τ} (hq : Q a) (hr : R s t) : Agreement R Q (.ok a s) (.ok a t)
  | error {e : ε} {s : σ} {t : τ} (hr : R s t) : Agreement R Q (.error e s) (.error e t)

namespace Agreement

variable {R : σ → τ → Prop} {Q : α → Prop} {r : EStateM.Result ε σ α} {r' : EStateM.Result ε τ α}

theorem rel (h : Agreement R Q r r') : R (finalState r) (finalState r') := by
  cases h with
  | ok _ hr => exact hr
  | error hr => exact hr

/-- Both return, or both raise. -/
theorem both (h : Agreement R Q r r') :
    (∃ a s t, r = .ok a s ∧ r' = .ok a t ∧ Q a ∧ R s t) ∨ ∃ e s t, r = .error e s ∧ r' = .error e t ∧ R s t := by
  cases h with
  | ok hq hr => exact .inl ⟨_, _, _, rfl, rfl, hq, hr⟩
  | error hr => exact .inr ⟨_, _, _, rfl, rfl, hr⟩

end Agreement

/-- From states that `R` relates, `x` and `y` have the same outcome, and the
states they end in are related. -/
def Agrees (R : σ → τ → Prop) (x : EStateM ε σ α) (y : EStateM ε τ α) (Q : α → Prop) : Prop :=
  ∀ s t, R s t → Agreement R Q (x s) (y t)

namespace Agrees

variable {R : σ → τ → Prop} {Q : α → Prop} {P : β → Prop} {x : EStateM ε σ α} {y : EStateM ε τ α}

theorem pure {a : α} (ha : Q a) : Agrees R (pure a : EStateM ε σ α) (pure a) Q :=
  fun _ _ hr => .ok ha hr

theorem throw (e : ε) : Agrees R (throw e : EStateM ε σ α) (throw e) Q :=
  fun _ _ hr => .error hr

theorem ofExcept (result : Except ε α) :
    Agrees R (MonadExcept.ofExcept result) (MonadExcept.ofExcept result) (fun a => result = .ok a) := by
  cases result with
  | ok a => exact pure rfl
  | error e => exact throw e

theorem modify {f : σ → σ} {g : τ → τ} (h : ∀ s t, R s t → R (f s) (g t)) :
    Agrees R (modify f : EStateM ε σ PUnit) (modify g) (fun _ => True) :=
  fun s t hr => .ok trivial (h s t hr)

theorem bind (h : Agrees R x y Q) {f : α → EStateM ε σ β} {g : α → EStateM ε τ β}
    (hf : ∀ a, Q a → Agrees R (f a) (g a) P) : Agrees R (x >>= f) (y >>= g) P := by
  intro s t hr
  obtain ⟨a, s', t', hx, hy, hq, hr'⟩ | ⟨e, s', t', hx, hy, hr'⟩ := (h s t hr).both
  · rw [bind_ok hx, bind_ok hy]
    exact hf a hq s' t' hr'
  · rw [bind_error hx, bind_error hy]
    exact .error hr'

theorem tryCatch (h : Agrees R x y Q) {f : ε → EStateM ε σ α} {g : ε → EStateM ε τ α}
    (hf : ∀ e, Agrees R (f e) (g e) Q) : Agrees R (tryCatch x f) (tryCatch y g) Q := by
  intro s t hr
  obtain ⟨a, s', t', hx, hy, hq, hr'⟩ | ⟨e, s', t', hx, hy, hr'⟩ := (h s t hr).both
  · rw [tryCatch_ok hx, tryCatch_ok hy]
    exact .ok hq hr'
  · rw [tryCatch_error hx, tryCatch_error hy]
    exact hf e s' t' hr'

/-- What both programs read of their states may differ; they go on from it. -/
theorem get_bind {f : σ → EStateM ε σ β} {g : τ → EStateM ε τ β}
    (h : ∀ s t, R s t → Agreement R P (f s s) (g t t)) : Agrees R (get >>= f) (get >>= g) P :=
  fun s t hr => h s t hr

end Agrees

end Ochestrate
