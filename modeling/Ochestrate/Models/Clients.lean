import Ochestrate.Framework.Agree
import Ochestrate.Models.Router

/-!
# The router over the clients of the repository

The two clients of `app/models/providers.py` answer from the prompt and their
configuration alone. A router over them leaves every state as it is and always
returns, whichever of the routed provider and the fallbacks answers
(`generate_init`), and what it returns for a prompt is not empty
(`output_ne_empty`).
-/

namespace Ochestrate

/-- The arguments of `ModelRouter`. -/
structure RouterSettings where
  defaultProvider : String
  providerConfigs : Dict String (Dict String Json)
  rules : List ModelRouteRule
  fallbackOrder : List String

namespace ModelRouter

variable {σ τ : Type} (B : Builtins) (settings : RouterSettings)

/-- `__init__`, for clients that share a state. -/
def init (σ : Type) : ModelRouter σ where
  defaultProvider := settings.defaultProvider
  providerConfigs := settings.providerConfigs
  rules := settings.rules
  fallbackOrder := settings.fallbackOrder
  clients := defaultClients B

/-! ## The clients -/

theorem echoClient_agrees (R : σ → τ → Prop) (name prompt : String) (config : ModelConfig) :
    Agrees R (echoClient B name prompt config) (echoClient B name prompt config) (fun output => output ≠ "") := by
  refine Agrees.bind (Agrees.ofExcept _) fun text _ => Agrees.pure fun hempty => ?_
  have hlength := congrArg String.length hempty
  simp only [String.length_append] at hlength
  exact absurd hlength (by simp)

/-- A provider has one of the two clients, or none. -/
theorem client_cases (σ τ : Type) (provider : String) :
    ((init B settings σ).clients.get? provider = none ∧ (init B settings τ).clients.get? provider = none) ∨
      ∃ name, (init B settings σ).clients.get? provider = some (echoClient B name) ∧
        (init B settings τ).clients.get? provider = some (echoClient B name) := by
  have hclients : ∀ ρ : Type, (init B settings ρ).clients.get? provider =
      if provider = "cloud" then some (echoClient B "cloud")
      else if provider = "local" then some (echoClient B "local")
      else none := by
    intro ρ
    show ((Dict.empty.set "local" (LocalModelClient B)).set "cloud" (CloudModelClient B)).get? provider = _
    rw [Dict.get?_set, Dict.get?_set]
    rfl
  rw [hclients, hclients]
  split
  · exact .inr ⟨"cloud", rfl, rfl⟩
  · split
    · exact .inr ⟨"local", rfl, rfl⟩
    · exact .inl ⟨rfl, rfl⟩

/-! ## The router -/

section Agreement

variable (R : σ → τ → Prop) {prompt : String}

/-- A client under the loops. -/
theorem call_agrees (name : String) (config : ModelConfig) (flag : Bool) {next : EStateM Exc σ (String × Bool)}
    {next' : EStateM Exc τ (String × Bool)} (h : Agrees R next next' fun output => output.1 ≠ "") :
    Agrees R (tryCatch (do return (← echoClient B name prompt config, flag)) fun _ => next)
      (tryCatch (do return (← echoClient B name prompt config, flag)) fun _ => next')
      (fun output => output.1 ≠ "") := by
  refine Agrees.tryCatch ?_ fun _ => h
  refine Agrees.bind (echoClient_agrees B R name prompt config) fun output houtput => ?_
  exact Agrees.pure houtput

theorem tryFallbacks_agrees (hprompt : prompt ≠ "") (fallbacks : List String) :
    Agrees R ((init B settings σ).tryFallbacks prompt fallbacks) ((init B settings τ).tryFallbacks prompt fallbacks)
      (fun output => output.1 ≠ "") := by
  induction fallbacks with
  | nil => exact Agrees.pure hprompt
  | cons fallback fallbacks ih =>
    obtain ⟨hnone, hnone'⟩ | ⟨name, hsome, hsome'⟩ := client_cases B settings σ τ fallback
    · simp only [tryFallbacks, hnone, hnone']
      exact ih
    · simp only [tryFallbacks, hsome, hsome']
      exact call_agrees B R name _ true ih

/-- Whatever the states are, the router answers the same. -/
theorem generate_agrees (hprompt : prompt ≠ "") (taskType sensitivity : String) :
    Agrees R ((init B settings σ).generate prompt taskType sensitivity)
      ((init B settings τ).generate prompt taskType sensitivity) (fun output => output.1 ≠ "") := by
  have hroute : (init B settings σ).route taskType sensitivity = (init B settings τ).route taskType sensitivity := rfl
  simp only [generate, hroute]
  obtain ⟨hnone, hnone'⟩ | ⟨name, hsome, hsome'⟩ :=
    client_cases B settings σ τ ((init B settings τ).route taskType sensitivity).provider
  · simp only [hnone, hnone']
    exact Agrees.pure hprompt
  · simp only [hsome, hsome']
    exact call_agrees B R name _ false (tryFallbacks_agrees B settings R hprompt _)

end Agreement

/-- What the router returns. -/
def output (prompt taskType sensitivity : String) : String × Bool :=
  match (init B settings Unit).generate prompt taskType sensitivity () with
  | .ok output _ => output
  | .error _ _ => (prompt, true)

variable {prompt : String} (hprompt : prompt ≠ "") (taskType sensitivity : String)

theorem exists_output (prompt taskType sensitivity : String) :
    ∃ output, (init B settings Unit).generate prompt taskType sensitivity () = .ok output () := by
  cases hclient : (init B settings Unit).clients.get? ((init B settings Unit).route taskType sensitivity).provider with
  | none => exact ⟨_, generate_of_none hclient⟩
  | some client =>
    obtain ⟨_, hgenerate⟩ := generate_eq prompt () hclient
    exact ⟨_, hgenerate⟩

include hprompt in
/-- The router returns its output, and leaves the state as it is. -/
theorem generate_init (s : σ) :
    (init B settings σ).generate prompt taskType sensitivity s = .ok (output B settings prompt taskType sensitivity) s := by
  obtain ⟨value, hvalue⟩ := exists_output B settings prompt taskType sensitivity
  have hagree := generate_agrees B settings (fun (_ : Unit) s' => s' = s) hprompt taskType sensitivity () s rfl
  rw [hvalue] at hagree
  obtain ⟨_, _, t, hunit, hgenerate, -, rfl⟩ | ⟨_, _, _, hunit, -, -⟩ := hagree.both
  · cases hunit
    rw [hgenerate, output, hvalue]
  · cases hunit

include hprompt in
/-- A prompt is not answered with an empty text. -/
theorem output_ne_empty : (output B settings prompt taskType sensitivity).1 ≠ "" := by
  obtain ⟨value, hvalue⟩ := exists_output B settings prompt taskType sensitivity
  have hagree := generate_agrees B settings (fun (_ _ : Unit) => True) hprompt taskType sensitivity () () trivial
  rw [hvalue] at hagree
  rw [output, hvalue]
  cases hagree with
  | ok houtput _ => exact houtput

end ModelRouter

end Ochestrate
