import Ochestrate.Framework.Fault
import Ochestrate.Framework.Machine

/-!
# Non-interference

A `Responder` answers each request and moves to its next state. Some of the
requests, `own`, are an observer's; the others are deleted from a run. An
`Unwinding` is a relation between the states of the whole run and of the rest of
it: an own request gets the same answer in both and keeps the relation, and so
does another request in the whole run alone. It follows that the observer gets
the same answers (`Unwinding.run`).

`Confined v x s` is how a program meets the first condition: run on the part `v`
of its state it does what it does on the whole state `s`.
-/

namespace Ochestrate

universe u v w

structure Responder (σ : Type u) (ε : Type v) (ο : Type w) where
  respond : σ → ε → ο × σ

namespace Responder

variable {σ : Type u} {ε : Type v} {ο : Type w} (M : Responder σ ε ο)

/-- The state after the requests. -/
def after (s : σ) (es : List ε) : σ := es.foldl (fun s e => (M.respond s e).2) s

/-- The answers to the own requests of a run, in order. -/
def answers (own : ε → Prop) [DecidablePred own] : σ → List ε → List ο
  | _, [] => []
  | s, e :: es =>
    if own e then (M.respond s e).1 :: answers own (M.respond s e).2 es else answers own (M.respond s e).2 es

/-- The machine of the requests; each can always happen. -/
def machine : Machine σ ε := ⟨fun s e => some (M.respond s e).2⟩

theorem meets_cons {C : σ → ε → Prop} {s : σ} {e : ε} {es : List ε} :
    M.machine.Meets C s (e :: es) ↔ C s e ∧ M.machine.Meets C (M.respond s e).2 es := by
  constructor
  · exact fun h => ⟨h.1, h.2 _ rfl⟩
  · intro h
    exact ⟨h.1, fun s' hs' => Option.some.inj hs' ▸ h.2⟩

/-- `R` relates the states of a run to those of the run of its own requests, if
the steps of the whole run satisfy `C`. -/
structure Unwinding (own : ε → Prop) (C : σ → ε → Prop) (R : σ → σ → Prop) : Prop where
  answer {s t : σ} {e : ε} : R s t → C s e → own e → (M.respond s e).1 = (M.respond t e).1
  next {s t : σ} {e : ε} : R s t → C s e → own e → R (M.respond s e).2 (M.respond t e).2
  other {s t : σ} {e : ε} : R s t → C s e → ¬ own e → R (M.respond s e).2 t

variable {M}

/-- Deleting the other requests changes no answer, and leads to a related
state. -/
theorem Unwinding.run {own : ε → Prop} [DecidablePred own] {C : σ → ε → Prop} {R : σ → σ → Prop}
    (h : M.Unwinding own C R) {s t : σ} {es : List ε} (hm : M.machine.Meets C s es) (hr : R s t) :
    M.answers own t (es.filter own) = M.answers own s es ∧ R (M.after s es) (M.after t (es.filter own)) := by
  induction es generalizing s t with
  | nil => exact ⟨rfl, hr⟩
  | cons e es ih =>
    obtain ⟨hc, hm⟩ := M.meets_cons.1 hm
    by_cases he : own e
    · have hfilter : (e :: es).filter own = e :: es.filter own := List.filter_cons_of_pos (decide_eq_true he)
      obtain ⟨hanswers, hafter⟩ := ih hm (h.next hr hc he)
      rw [hfilter]
      refine ⟨?_, hafter⟩
      rw [answers, answers, if_pos he, if_pos he, hanswers, h.answer hr hc he]
    · have hfilter : (e :: es).filter own = es.filter own := List.filter_cons_of_neg (by simpa using he)
      obtain ⟨hanswers, hafter⟩ := ih hm (h.other hr hc he)
      rw [hfilter]
      refine ⟨?_, hafter⟩
      rw [hanswers, answers.eq_2, if_neg he]

end Responder

/-! ## Programs over a part of their state -/

section Confined

variable {ε σ α β : Type u}

/-- What a result answers, and the state it ends in. -/
def outcome (result : EStateM.Result ε σ α) : Except ε α × σ :=
  match result with
  | .ok a s => (.ok a, s)
  | .error exc s => (.error exc, s)

/-- A result over a part of the state. -/
def within (v : σ → σ) : EStateM.Result ε σ α → EStateM.Result ε σ α
  | .ok a s => .ok a (v s)
  | .error exc s => .error exc (v s)

/-- From `s`, the program needs no more than the part `v` of the state. -/
def Confined (v : σ → σ) (x : EStateM ε σ α) (s : σ) : Prop := x (v s) = within v (x s)

theorem outcome_within (v : σ → σ) (result : EStateM.Result ε σ α) :
    outcome (within v result) = ((outcome result).1, v (outcome result).2) := by
  cases result <;> rfl

theorem outcome_snd (result : EStateM.Result ε σ α) : (outcome result).2 = finalState result := by
  cases result <;> rfl

namespace Confined

variable {v : σ → σ} {s t : σ}

theorem pure (a : α) : Confined v (Pure.pure a : EStateM ε σ α) s := rfl

theorem throw (exc : ε) : Confined v (throw exc : EStateM ε σ α) s := rfl

theorem bind {x : EStateM ε σ α} {f : α → EStateM ε σ β} (h : Confined v x s)
    (hf : ∀ a s', x s = .ok a s' → Confined v (f a) s') : Confined v (x >>= f) s := by
  unfold Confined at h ⊢
  cases hx : x s with
  | error exc s' =>
    rw [hx] at h
    rw [bind_error hx, bind_error h, within]
  | ok a s' =>
    rw [hx] at h
    rw [bind_ok hx, bind_ok h]
    exact hf a s' hx

/-- From states with the same part a confined program answers the same, and ends
in states with the same part. -/
theorem agree {x : EStateM ε σ α} (hs : Confined v x s) (ht : Confined v x t) (h : v s = v t) :
    (outcome (x s)).1 = (outcome (x t)).1 ∧ v (outcome (x s)).2 = v (outcome (x t)).2 := by
  have heq : within v (x s) = within v (x t) := by
    rw [Confined] at hs ht
    rw [← hs, ← ht, h]
  have houtcome := congrArg outcome heq
  rw [outcome_within, outcome_within] at houtcome
  exact Prod.mk.inj houtcome

end Confined

end Confined

end Ochestrate
