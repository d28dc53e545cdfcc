import Mathlib.Data.List.Induction
import Ochestrate.Framework.Interference

/-!
# What a responder was asked and what it answered

The transcript of a run pairs each request with its answer. A relation between
the state and the transcript holds after every run if it holds of the first
state and each answer keeps it (`Responder.transcript_inv`); a transcript is
built from its end, so what one request adds is all there is to show.
-/

namespace Ochestrate

universe u v w

namespace Responder

variable {σ : Type u} {ε : Type v} {ο : Type w} (M : Responder σ ε ο)

/-- The requests of a run with their answers, in order. -/
def transcript : σ → List ε → List (ε × ο)
  | _, [] => []
  | s, e :: es => (e, (M.respond s e).1) :: transcript (M.respond s e).2 es

theorem transcript_append (s : σ) (es es' : List ε) :
    M.transcript s (es ++ es') = M.transcript s es ++ M.transcript (M.after s es) es' := by
  induction es generalizing s with
  | nil => rfl
  | cons e es ih =>
    rw [List.cons_append, transcript, transcript, ih, List.cons_append]
    rfl

theorem transcript_concat (s : σ) (es : List ε) (e : ε) :
    M.transcript s (es ++ [e]) = M.transcript s es ++ [(e, (M.respond (M.after s es) e).1)] :=
  M.transcript_append s es [e]

theorem after_concat (s : σ) (es : List ε) (e : ε) : M.after s (es ++ [e]) = (M.respond (M.after s es) e).2 := by
  rw [after, List.foldl_append]
  rfl

theorem map_fst_transcript (s : σ) (es : List ε) : (M.transcript s es).map Prod.fst = es := by
  induction es generalizing s with
  | nil => rfl
  | cons e es ih => rw [transcript, List.map_cons, ih]

/-- What holds of the first state and is kept by each answer to a request in `C`
holds after every run of such requests. -/
theorem transcript_inv {C : ε → Prop} {I : σ → List (ε × ο) → Prop} {s : σ} (hinit : I s [])
    (hstep : ∀ {s : σ} {history : List (ε × ο)} {e : ε}, I s history → C e →
      I (M.respond s e).2 (history ++ [(e, (M.respond s e).1)]))
    {es : List ε} (hes : ∀ e ∈ es, C e) : I (M.after s es) (M.transcript s es) := by
  induction es using List.reverseRecOn with
  | nil => exact hinit
  | append_singleton es e ih =>
    rw [after_concat, transcript_concat]
    have hprefix := ih fun e' he' => hes e' (List.mem_append_left _ he')
    exact hstep hprefix (hes e (List.mem_append_right _ (List.mem_singleton_self e)))

end Responder

end Ochestrate
