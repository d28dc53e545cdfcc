import Mathlib.Data.Option.Basic

/-!
# State machines: runs, invariants and projections

A `Machine` is a partial step function: `step s e = none` when the event `e`
cannot happen in `s`. `run` folds it over a list of events. A condition on
single steps is `Meets C s es`: every step that a run of `es` from `s` takes
satisfies `C` in the state it starts from.

`run_inv` is the induction behind every safety result: what each step keeps
under `C` holds at the end of every run that meets `C`; `run_iff` is its exact
form. A `Projection` maps a machine to a smaller one, every step to a step, and
what the smaller machine keeps, the larger one keeps (`Projection.keeps`).
-/

namespace Ochestrate

universe u v

/-- A transition system given by a partial step function. -/
structure Machine (σ : Type u) (ε : Type v) where
  step : σ → ε → Option σ

namespace Machine

variable {σ τ : Type u} {ε δ : Type v} (M : Machine σ ε)

/-- The state after the events, if each of them can happen in turn. -/
def run : σ → List ε → Option σ
  | s, [] => some s
  | s, e :: es => (M.step s e).bind fun s' => run s' es

@[simp] theorem run_nil (s : σ) : M.run s [] = some s := rfl

theorem run_cons (s : σ) (e : ε) (es : List ε) :
    M.run s (e :: es) = (M.step s e).bind fun s' => M.run s' es := rfl

theorem run_cons_some {s s' : σ} {e : ε} (h : M.step s e = some s') (es : List ε) :
    M.run s (e :: es) = M.run s' es := by
  rw [run_cons, h, Option.bind_some]

theorem run_append (s : σ) (es es' : List ε) :
    M.run s (es ++ es') = (M.run s es).bind fun s' => M.run s' es' := by
  induction es generalizing s with
  | nil => rfl
  | cons e es ih => simp only [List.cons_append, run_cons, Option.bind_assoc, ih]

/-- The events, or the first few of them, lead to a state in `Q`. -/
def Reaches (s : σ) (es : List ε) (Q : σ → Prop) : Prop :=
  ∃ es' s', es' <+: es ∧ M.run s es' = some s' ∧ Q s'

theorem reaches_of {Q : σ → Prop} {s : σ} {es : List ε} (h : Q s) : M.Reaches s es Q :=
  ⟨[], s, List.nil_prefix, rfl, h⟩

theorem reaches_cons {Q : σ → Prop} {s s' : σ} {e : ε} {es : List ε} (h : M.step s e = some s')
    (hs : M.Reaches s' es Q) : M.Reaches s (e :: es) Q := by
  obtain ⟨es', s'', hprefix, hrun, hq⟩ := hs
  exact ⟨e :: es', s'', (List.prefix_cons_inj e).2 hprefix, by rw [run_cons_some _ h, hrun], hq⟩

/-- The events, and the first few of them, lead to no state outside `Q`. -/
def Always (Q : σ → Prop) (s : σ) (es : List ε) : Prop :=
  ∀ es' s', es' <+: es → M.run s es' = some s' → Q s'

theorem always_nil {Q : σ → Prop} {s : σ} : M.Always Q s [] ↔ Q s := by
  constructor
  · exact fun h => h [] s List.nil_prefix rfl
  · intro h es' s' hprefix hrun
    rw [List.prefix_nil.1 hprefix, run_nil, Option.some.injEq] at hrun
    exact hrun ▸ h

theorem always_cons {Q : σ → Prop} {s : σ} {e : ε} {es : List ε} :
    M.Always Q s (e :: es) ↔ Q s ∧ ∀ s', M.step s e = some s' → M.Always Q s' es := by
  constructor
  · intro h
    refine ⟨h [] s List.nil_prefix rfl, fun s' hstep es' s'' hprefix hrun => ?_⟩
    exact h (e :: es') s'' ((List.prefix_cons_inj e).2 hprefix) (by rw [run_cons_some _ hstep, hrun])
  · rintro ⟨hs, h⟩ es' s'' hprefix hrun
    cases es' with
    | nil => rw [run_nil, Option.some.injEq] at hrun; exact hrun ▸ hs
    | cons e' es' =>
      obtain ⟨rfl, hrest⟩ := List.cons_prefix_cons.1 hprefix
      obtain ⟨s', hstep, hrun⟩ := Option.bind_eq_some_iff.1 hrun
      exact h s' hstep es' s'' hrest hrun

/-- Every step that a run of the events from `s` takes satisfies `C`. -/
def Meets (C : σ → ε → Prop) : σ → List ε → Prop
  | _, [] => True
  | s, e :: es => C s e ∧ ∀ s', M.step s e = some s' → Meets C s' es

theorem meets_and {C D : σ → ε → Prop} {s : σ} {es : List ε} :
    M.Meets (fun s e => C s e ∧ D s e) s es ↔ M.Meets C s es ∧ M.Meets D s es := by
  induction es generalizing s with
  | nil => exact ⟨fun _ => ⟨trivial, trivial⟩, fun _ => trivial⟩
  | cons e es ih =>
    constructor
    · rintro ⟨⟨hc, hd⟩, hm⟩
      exact ⟨⟨hc, fun s' h => (ih.1 (hm s' h)).1⟩, hd, fun s' h => (ih.1 (hm s' h)).2⟩
    · rintro ⟨⟨hc, hm⟩, hd, hm'⟩
      exact ⟨⟨hc, hd⟩, fun s' h => ih.2 ⟨hm s' h, hm' s' h⟩⟩

/-- A condition that does not depend on the state. -/
theorem meets_of_forall {D : ε → Prop} {s : σ} {es : List ε} (h : ∀ e ∈ es, D e) :
    M.Meets (fun _ e => D e) s es := by
  induction es generalizing s with
  | nil => trivial
  | cons e es ih =>
    exact ⟨h e (List.mem_cons_self ..), fun s' _ => ih fun e' he' => h e' (List.mem_cons_of_mem _ he')⟩

theorem meets_of_all {C : σ → ε → Prop} (h : ∀ s e, C s e) (s : σ) (es : List ε) : M.Meets C s es := by
  induction es generalizing s with
  | nil => trivial
  | cons e es ih => exact ⟨h s e, fun s' _ => ih s'⟩

/-- A run that meets `C` splits into two that do. -/
theorem meets_append {C : σ → ε → Prop} {s : σ} {es es' : List ε} (hm : M.Meets C s (es ++ es')) :
    M.Meets C s es ∧ ∀ s', M.run s es = some s' → M.Meets C s' es' := by
  induction es generalizing s with
  | nil => exact ⟨trivial, fun s' h => by rw [run_nil, Option.some.injEq] at h; exact h ▸ hm⟩
  | cons e es ih =>
    refine ⟨⟨hm.1, fun s₁ h₁ => (ih (hm.2 s₁ h₁)).1⟩, fun s' h => ?_⟩
    obtain ⟨s₁, h₁, h₂⟩ := Option.bind_eq_some_iff.1 h
    exact (ih (hm.2 s₁ h₁)).2 s' h₂

/-- `I` is kept by every step that satisfies `C`. -/
def Keeps (C : σ → ε → Prop) (I : σ → Prop) : Prop :=
  ∀ {s : σ} {e : ε} {s' : σ}, C s e → M.step s e = some s' → I s → I s'

/-- What every step keeps holds at the end of every run. -/
theorem run_inv {C : σ → ε → Prop} {I : σ → Prop} (hk : M.Keeps C I) {s s' : σ} {es : List ε}
    (hm : M.Meets C s es) (h : M.run s es = some s') (hi : I s) : I s' := by
  induction es generalizing s with
  | nil => rw [run_nil, Option.some.injEq] at h; exact h ▸ hi
  | cons e es ih =>
    obtain ⟨s₁, h₁, h₂⟩ := Option.bind_eq_some_iff.1 h
    exact ih (hm.2 s₁ h₁) h₂ (hk hm.1 h₁ hi)

variable {M} in
/-- A stronger condition keeps what a weaker one does. -/
theorem Keeps.mono {C D : σ → ε → Prop} {I : σ → Prop} (hk : M.Keeps C I) (h : ∀ s e, D s e → C s e) : M.Keeps D I :=
  fun hd hstep hi => hk (h _ _ hd) hstep hi

/-- What every step keeps, whatever the events, holds at the end of every
run. -/
theorem run_stays {I : σ → Prop} (hk : M.Keeps (fun _ _ => True) I) {s s' : σ} {es : List ε}
    (h : M.run s es = some s') (hi : I s) : I s' :=
  M.run_inv hk (M.meets_of_forall fun _ _ => trivial) h hi

/-- What every step keeps holds in every state that is reached. -/
theorem always_of_keeps {C : σ → ε → Prop} {I : σ → Prop} (hk : M.Keeps C I) {s : σ} {es : List ε}
    (hm : M.Meets C s es) (hi : I s) : M.Always I s es := by
  rintro es' s' ⟨rest, rfl⟩ hrun
  exact M.run_inv hk (M.meets_append hm).1 hrun hi

/-- If a step reaches a state satisfying `I` exactly from such a state and
under `C`, a run does exactly if all its steps satisfy `C`. -/
theorem run_iff {C : σ → ε → Prop} {I : σ → Prop}
    (hstep : ∀ {s : σ} {e : ε} {s' : σ}, M.step s e = some s' → (I s' ↔ I s ∧ C s e)) {s s' : σ} {es : List ε}
    (h : M.run s es = some s') : I s' ↔ I s ∧ M.Meets C s es := by
  induction es generalizing s with
  | nil => rw [run_nil, Option.some.injEq] at h; subst h; simp [Meets]
  | cons e es ih =>
    obtain ⟨s₁, h₁, h₂⟩ := Option.bind_eq_some_iff.1 h
    simp only [Meets, h₁, Option.some.injEq, forall_eq']
    rw [ih h₂, hstep h₁, and_assoc]

/-- If a step from a state in `I` stays in `I` exactly under `C`, the runs that
never leave `I` are those whose steps all satisfy `C`. -/
theorem always_iff {C : σ → ε → Prop} {I : σ → Prop}
    (hstep : ∀ {s : σ} {e : ε}, I s → ((∀ s', M.step s e = some s' → I s') ↔ C s e)) {s : σ} {es : List ε} (hi : I s) :
    M.Always I s es ↔ M.Meets C s es := by
  induction es generalizing s with
  | nil => exact ⟨fun _ => trivial, fun _ => M.always_nil.2 hi⟩
  | cons e es ih =>
    rw [always_cons]
    constructor
    · rintro ⟨-, h⟩
      have hkept : ∀ s', M.step s e = some s' → I s' := fun s' hs' => h s' hs' [] s' List.nil_prefix rfl
      exact ⟨(hstep hi).1 hkept, fun s' hs' => (ih (hkept s' hs')).1 (h s' hs')⟩
    · rintro ⟨hc, h⟩
      exact ⟨hi, fun s' hs' => (ih ((hstep hi).2 hc s' hs')).2 (h s' hs')⟩

/-- Under an invariant that `C` keeps, two conditions that agree on its states
are met by the same runs. -/
theorem meets_congr {A C : σ → ε → Prop} {I : σ → Prop} (hk : M.Keeps C I)
    (hiff : ∀ {s : σ} {e : ε}, I s → (A s e ↔ C s e)) {s : σ} {es : List ε} (hi : I s) :
    M.Meets A s es ↔ M.Meets C s es := by
  induction es generalizing s with
  | nil => exact Iff.rfl
  | cons e es ih =>
    constructor
    · rintro ⟨ha, hm⟩
      have hc : C s e := (hiff hi).1 ha
      exact ⟨hc, fun s' h => (ih (hk hc h hi)).1 (hm s' h)⟩
    · rintro ⟨hc, hm⟩
      exact ⟨(hiff hi).2 hc, fun s' h => (ih (hk hc h hi)).2 (hm s' h)⟩

/-- Either every step of a run satisfies `C` and keeps `I`, or one does not,
and what holds after it, `D`, holds from then on. -/
theorem run_cases {C : σ → ε → Prop} {I D : σ → Prop} (hk : M.Keeps C I)
    (hbad : ∀ {s : σ} {e : ε} {s' : σ}, ¬ C s e → M.step s e = some s' → I s → D s')
    (hd : M.Keeps (fun _ _ => True) D) {s s' : σ} {es : List ε} (h : M.run s es = some s') (hi : I s) :
    (M.Meets C s es ∧ I s') ∨ (¬ M.Meets C s es ∧ D s') := by
  induction es generalizing s with
  | nil => rw [run_nil, Option.some.injEq] at h; exact .inl ⟨trivial, h ▸ hi⟩
  | cons e es ih =>
    obtain ⟨s₁, h₁, h₂⟩ := Option.bind_eq_some_iff.1 h
    by_cases hc : C s e
    · rcases ih h₂ (hk hc h₁ hi) with ⟨hm, hi'⟩ | ⟨hm, hd'⟩
      · exact .inl ⟨⟨hc, fun s₂ h' => by rw [h₁, Option.some.injEq] at h'; exact h' ▸ hm⟩, hi'⟩
      · exact .inr ⟨fun hm' => hm (hm'.2 s₁ h₁), hd'⟩
    · exact .inr ⟨fun hm => hc hm.1, M.run_stays hd h₂ (hbad hc h₁ hi)⟩

/-- What a run acquires, one of its steps does. -/
theorem run_acquires {P : σ → Prop} {s s' : σ} {es : List ε} (h : M.run s es = some s') (hs : ¬ P s) (hs' : P s') :
    ∃ es₁ e es₂ s₁ s₂, es = es₁ ++ e :: es₂ ∧ M.run s es₁ = some s₁ ∧ M.step s₁ e = some s₂ ∧
      M.run s₂ es₂ = some s' ∧ ¬ P s₁ ∧ P s₂ := by
  induction es generalizing s with
  | nil => rw [run_nil, Option.some.injEq] at h; exact absurd (h ▸ hs') hs
  | cons e es ih =>
    obtain ⟨s₁, h₁, h₂⟩ := Option.bind_eq_some_iff.1 h
    by_cases hp : P s₁
    · exact ⟨[], e, es, s, s₁, rfl, rfl, h₁, h₂, hs, hp⟩
    · obtain ⟨es₁, e', es₂, s₂, s₃, rfl, hr, hstep, hrest, hn, hp'⟩ := ih h₂ hp
      exact ⟨e :: es₁, e', es₂, s₂, s₃, rfl, by rw [run_cons_some _ h₁, hr], hstep, hrest, hn, hp'⟩

instance decidableMeets (C : σ → ε → Prop) [∀ s e, Decidable (C s e)] :
    ∀ (s : σ) (es : List ε), Decidable (M.Meets C s es)
  | _, [] => isTrue trivial
  | s, e :: es =>
    have : Decidable (∀ s', M.step s e = some s' → M.Meets C s' es) :=
      match M.step s e with
      | none => isTrue fun _ h' => nomatch h'
      | some s₁ =>
        have := decidableMeets C s₁ es
        decidable_of_iff (M.Meets C s₁ es)
          ⟨fun hm _ h' => Option.some.inj h' ▸ hm, fun hm => hm s₁ rfl⟩
    inferInstanceAs (Decidable (C s e ∧ ∀ s', M.step s e = some s' → M.Meets C s' es))

end Machine

/-- A map of states and events under which every step of `M` is a step of `N`. -/
structure Projection {σ τ : Type u} {ε δ : Type v} (M : Machine σ ε) (N : Machine τ δ) where
  view : σ → τ
  act : σ → ε → δ
  sim : ∀ {s : σ} {e : ε} {s' : σ}, M.step s e = some s' → N.step (view s) (act s e) = some (view s')

namespace Projection

variable {σ τ : Type u} {ε δ : Type v} {M : Machine σ ε} {N : Machine τ δ} (p : Projection M N)

/-- What the smaller machine keeps, the larger one keeps of the view. -/
theorem keeps {C : σ → ε → Prop} {D : τ → δ → Prop} {I : τ → Prop} (hk : N.Keeps D I)
    (hc : ∀ s e, C s e → D (p.view s) (p.act s e)) : M.Keeps C fun s => I (p.view s) :=
  fun h hs => hk (hc _ _ h) (p.sim hs)

end Projection

end Ochestrate
