import Ochestrate.Framework.Strings
import Ochestrate.Tools.Base

/-!
# The model router

`app/models/`: a rule or the default names a provider, and if its client raises
the providers of `fallback_order` are tried in their order. The clients share a
state `σ`, and a call may change it, return any text or raise. `firstAnswer` is
what the list of the routed provider and the fallbacks should give: the answer
of the first that has a client and does not raise, with its place.
`generate_eq` says that this is what comes out if the routed provider has a
client; if it has none no fallback is tried (`generate_of_none`).
-/

namespace Ochestrate

structure ModelConfig where
  name : Json
  timeoutSeconds : Json
  maxTokens : Json
  provider : String

/-- `client.generate(prompt, config)` -/
abbrev ModelClient (σ : Type) := String → ModelConfig → EStateM Exc σ String

structure RoutedModel where
  provider : String
  config : ModelConfig

structure ModelRouteRule where
  taskType : String
  sensitivity : String
  provider : String

structure ModelRouter (σ : Type) where
  defaultProvider : String
  providerConfigs : Dict String (Dict String Json)
  rules : List ModelRouteRule
  fallbackOrder : List String
  clients : Dict String (ModelClient σ)

namespace ModelRouter

variable {σ : Type} (router : ModelRouter σ)

/-- `_make_routed` -/
def makeRouted (provider : String) : RoutedModel :=
  let cfg := (router.providerConfigs.get? provider).getD Dict.empty
  { provider
    config := {
      name := (cfg.get? "model").getD (.str "unknown-model")
      timeoutSeconds := (cfg.get? "timeout_seconds").getD (.int 20)
      maxTokens := (cfg.get? "max_tokens").getD (.int 1024)
      provider } }

def route (taskType sensitivity : String) : RoutedModel :=
  match router.rules.find? fun rule => rule.taskType = taskType ∧ rule.sensitivity = sensitivity with
  | some rule => router.makeRouted rule.provider
  | none => router.makeRouted router.defaultProvider

/-- The loop over the providers that are left. -/
def tryFallbacks (prompt : String) : List String → EStateM Exc σ (String × Bool)
  | [] => return (prompt, true)
  | fallback :: fallbacks =>
    match router.clients.get? fallback with
    | none => tryFallbacks prompt fallbacks
    | some client =>
      tryCatch (do return (← client prompt (router.makeRouted fallback).config, true)) fun _ =>
        tryFallbacks prompt fallbacks

def generate (prompt taskType sensitivity : String) : EStateM Exc σ (String × Bool) :=
  let routed := router.route taskType sensitivity
  match router.clients.get? routed.provider with
  | none => return (prompt, true)
  | some client =>
    tryCatch (do return (← client prompt routed.config, false)) fun _ =>
      router.tryFallbacks prompt router.fallbackOrder

/-! ## Answers -/

/-- What one provider answers, called with its own configuration, and the state after it. -/
def ask (prompt provider : String) (s : σ) : Option String × σ :=
  match router.clients.get? provider with
  | none => (none, s)
  | some client =>
    match client prompt (router.makeRouted provider).config s with
    | .ok output s' => (some output, s')
    | .error _ s' => (none, s')

/-- The first answer of the providers and its place among them. -/
def firstAnswer (prompt : String) : List String → σ → Option (Nat × String)
  | [], _ => none
  | provider :: providers, s =>
    match router.ask prompt provider s with
    | (some output, _) => some (0, output)
    | (none, s') => (firstAnswer prompt providers s').map fun answer => (answer.1 + 1, answer.2)

/-- The routed provider, and the fallbacks after it. -/
def providers (taskType sensitivity : String) : List String :=
  (router.route taskType sensitivity).provider :: router.fallbackOrder

/-- The run returns the first answer, with the flag unless it is the routed
provider's, and the prompt under the flag only if there is no answer. -/
def Answers (prompt taskType sensitivity : String) (s : σ) : Prop :=
  (∃ output flag s', router.generate prompt taskType sensitivity s = .ok (output, flag) s') ∧
    (∀ i output, router.firstAnswer prompt (router.providers taskType sensitivity) s = some (i, output) →
      ∃ s', router.generate prompt taskType sensitivity s = .ok (output, decide (i ≠ 0)) s') ∧
    (∀ s', router.generate prompt taskType sensitivity s = .ok (prompt, true) s' →
      router.firstAnswer prompt (router.providers taskType sensitivity) s = none)

/-- A routed model has the configuration of its own provider. -/
theorem config_route (taskType sensitivity : String) :
    (router.route taskType sensitivity).config =
      (router.makeRouted (router.route taskType sensitivity).provider).config := by
  unfold route
  split <;> rfl

variable {router} {prompt taskType sensitivity : String} {s : σ}

/-- A provider under the loops: its answer, or the next step. -/
theorem tryCatch_ask {provider : String} {client : ModelClient σ} (h : router.clients.get? provider = some client)
    (flag : Bool) (next : EStateM Exc σ (String × Bool)) :
    tryCatch (do return (← client prompt (router.makeRouted provider).config, flag)) (fun _ => next) s =
      match router.ask prompt provider s with
      | (some output, s') => .ok (output, flag) s'
      | (none, s') => next s' := by
  rw [ask, h]
  cases hcall : client prompt (router.makeRouted provider).config s with
  | ok output s' =>
    simp only [hcall]
    have hreturn : (do return (← client prompt (router.makeRouted provider).config, flag) : EStateM Exc σ _) s =
        .ok (output, flag) s' := bind_ok hcall _
    exact tryCatch_ok hreturn _
  | error exc s' =>
    simp only [hcall]
    exact tryCatch_error (bind_error hcall _) _

variable (router prompt) in
/-- The loop gives the first answer of its providers, or the prompt. -/
theorem tryFallbacks_eq (fallbacks : List String) (s : σ) :
    ∃ s', router.tryFallbacks prompt fallbacks s =
      .ok (((router.firstAnswer prompt fallbacks s).map Prod.snd).getD prompt, true) s' := by
  induction fallbacks generalizing s with
  | nil => exact ⟨s, rfl⟩
  | cons fallback fallbacks ih =>
    cases hclient : router.clients.get? fallback with
    | none =>
      have hask : router.ask prompt fallback s = (none, s) := by rw [ask, hclient]
      obtain ⟨s', hrest⟩ := ih s
      refine ⟨s', ?_⟩
      simp only [tryFallbacks, hclient, firstAnswer, hask, hrest, Option.map_map]
      rfl
    | some client =>
      simp only [tryFallbacks, hclient, tryCatch_ask hclient, firstAnswer]
      rcases router.ask prompt fallback s with ⟨_ | output, s'⟩
      · obtain ⟨s'', hrest⟩ := ih s'
        refine ⟨s'', ?_⟩
        simp only [hrest, Option.map_map]
        rfl
      · exact ⟨s', rfl⟩

/-- Without a client for the routed provider no other is asked. -/
theorem generate_of_none (h : router.clients.get? (router.route taskType sensitivity).provider = none) :
    router.generate prompt taskType sensitivity s = .ok (prompt, true) s := by
  simp only [generate, h]
  rfl

variable (prompt s) in
/-- With a client for the routed provider the first answer comes out. -/
theorem generate_eq {client : ModelClient σ}
    (h : router.clients.get? (router.route taskType sensitivity).provider = some client) :
    ∃ s', router.generate prompt taskType sensitivity s =
      .ok (match router.firstAnswer prompt (router.providers taskType sensitivity) s with
        | some (i, output) => (output, decide (i ≠ 0))
        | none => (prompt, true)) s' := by
  simp only [generate, h, providers, firstAnswer]
  rw [config_route, tryCatch_ask h]
  rcases router.ask prompt (router.route taskType sensitivity).provider s with ⟨_ | output, s'⟩
  · obtain ⟨s'', hrest⟩ := router.tryFallbacks_eq prompt router.fallbackOrder s'
    refine ⟨s'', ?_⟩
    simp only [hrest]
    cases router.firstAnswer prompt router.fallbackOrder s' with
    | none => rfl
    | some answer => rfl
  · exact ⟨s', rfl⟩

variable (router prompt taskType sensitivity s) in
/-- When a run answers as it should: no provider answers, or the routed
provider has a client and the first answer is not a fallback's that repeats the
prompt. -/
theorem answers_iff :
    router.Answers prompt taskType sensitivity s ↔
      router.firstAnswer prompt (router.providers taskType sensitivity) s = none ∨
        (router.clients.get? (router.route taskType sensitivity).provider ≠ none ∧
          ∀ i, router.firstAnswer prompt (router.providers taskType sensitivity) s ≠ some (i + 1, prompt)) := by
  unfold Answers
  cases hclient : router.clients.get? (router.route taskType sensitivity).provider with
  | none =>
    rw [generate_of_none hclient]
    constructor
    · intro h
      exact .inl (h.2.2 s rfl)
    · intro h
      have hnone := h.resolve_right fun h => h.1 rfl
      refine ⟨⟨_, _, _, rfl⟩, fun i output hsome => ?_, fun _ _ => hnone⟩
      rw [hnone] at hsome
      cases hsome
  | some client =>
    obtain ⟨s', hrun⟩ := generate_eq prompt s hclient
    rw [hrun]
    cases hfirst : router.firstAnswer prompt (router.providers taskType sensitivity) s with
    | none => simp
    | some answer =>
      obtain ⟨i, output⟩ := answer
      cases i with
      | zero => simp
      | succ i =>
        simp only [EStateM.Result.ok.injEq, Option.some.injEq, Prod.mk.injEq]
        constructor
        · intro h
          refine .inr ⟨by simp, fun j hj => ?_⟩
          have hnone := h.2.2 s' ⟨⟨(Prod.mk.inj (Option.some.inj hj)).2, by simp⟩, rfl⟩
          cases hnone
        · intro h
          rcases h with h | h
          · cases h
          · refine ⟨⟨output, _, s', ⟨rfl, rfl⟩, rfl⟩, ?_, fun s'' hprompt => ?_⟩
            · rintro j output' ⟨rfl, rfl⟩
              exact ⟨s', ⟨rfl, rfl⟩, rfl⟩
            · exact absurd (by rw [hprompt.1.1]) (h.2 i)

end ModelRouter

/-! ## The clients of the repository -/

/-- `prompt[:max_tokens]` -/
def slicePrompt (prompt : String) : Json → Except Exc String
  | .null => .ok prompt
  | .bool b => .ok (.ofList (sliceTo (if b then 1 else 0) prompt.toList))
  | .int n => .ok (.ofList (sliceTo n prompt.toList))
  | _ => .error ⟨.typeError, "slice indices must be integers or None or have an __index__ method"⟩

/-- A client that answers under its own name. -/
def echoClient {σ : Type} (B : Builtins) (name : String) : ModelClient σ := fun prompt config => do
  let text ← MonadExcept.ofExcept (slicePrompt prompt config.maxTokens)
  return "[" ++ name ++ ":" ++ B.str config.name ++ "] " ++ text

def LocalModelClient {σ : Type} (B : Builtins) : ModelClient σ := echoClient B "local"

def CloudModelClient {σ : Type} (B : Builtins) : ModelClient σ := echoClient B "cloud"

/-- The clients that a router is built with. -/
def defaultClients {σ : Type} (B : Builtins) : Dict String (ModelClient σ) :=
  Dict.empty.update [("local", LocalModelClient B), ("cloud", CloudModelClient B)]

/-- A rule for a provider that has no client, and a fallback that has one. -/
def azureRouter : ModelRouter Unit where
  defaultProvider := "cloud"
  providerConfigs := Dict.empty.update [("cloud", Dict.empty.update [("model", .str "cloud-y")])]
  rules := [⟨"qa", "low", "azure"⟩]
  fallbackOrder := ["cloud"]
  clients := defaultClients asciiBuiltins

/-- The prompt itself is returned, and no fallback is asked. -/
theorem exists_not_answers :
    ¬ ∀ (router : ModelRouter Unit) (prompt taskType sensitivity : String) (s : Unit),
      router.Answers prompt taskType sensitivity s := by
  intro h
  obtain ⟨-, -, hnone⟩ := h azureRouter "Who are you?" "qa" "low" ()
  have hlast := hnone () rfl
  revert hlast
  decide

end Ochestrate
