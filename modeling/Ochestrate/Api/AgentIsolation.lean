import Ochestrate.Api.Turns
import Ochestrate.Orchestration.TenantView

/-!
# Agent runs of different tenants

Tenants share one container: one hub with its cache, one store of windows, of
records and of chunks. `agents_isolated` says that a tenant is answered as if the
other tenants made no requests, except that all tenants share the skills: deleting
the runs and the ingested texts of the others changes neither an answer nor what
the tenant sees of the services. Its own tools answer from their parameters and its
keys are new to the cache, and no tool writes where the skills are.
-/

namespace Ochestrate

open ToolHub ExecutorAgent

variable {υ : Type} {P : Platform} {tenantId : String} {hub hub' : ToolHub (World P.shortTurns υ)}

namespace PlatformCall

/-- The caller's session. -/
def session (call : PlatformCall) : MemoryService.Session := ⟨call.auth.tenantId, call.auth.userId, call.auth.sessionId⟩

/-- A request that writes what all tenants share. -/
def IsShared (call : PlatformCall) : Bool :=
  match call.request with
  | .createSkill _ _ => true
  | _ => false

/-- The requests of a tenant, and those that write what it shares. -/
def IsOwn (tenantId : String) (call : PlatformCall) : Prop := call.auth.tenantId = tenantId ∨ call.IsShared = true

instance (tenantId : String) : DecidablePred (IsOwn tenantId) := fun _ => inferInstanceAs (Decidable (_ ∨ _))

/-- The calls of tools that a request makes. -/
def toolCalls (P : Platform) (call : PlatformCall) : List ToolCall :=
  match call.request with
  | .run auth request =>
    let request := bindUnifiedRequestAuth request auth
    (callsOf P.builtins (executeContext request call.draws.traceId) (PlannerAgent.plan P.builtins request)).1
  | _ => []

end PlatformCall

/-- A caller whose session has no colon, and if the tenant calls, tools that answer
from their parameters and keys that are new. -/
structure Undisturbed (P : Platform) (tenantId : String) (hub : ToolHub (World P.shortTurns υ)) (call : PlatformCall) :
    Prop where
  plain : call.session.Plain
  stateless : call.auth.tenantId = tenantId → ∀ toolCall ∈ call.toolCalls P, ∀ tool,
    hub.registry.get? toolCall.toolName = some tool → tool.Stateless
  fresh : call.auth.tenantId = tenantId → ∀ toolCall ∈ call.toolCalls P,
    hub.idempotencyCache.get? toolCall.idempotencyKey = none

/-- Two hubs that a tenant cannot tell apart. The second has less in its cache. -/
structure Mirrors (tenantId : String) (hub hub' : ToolHub (World P.shortTurns υ)) : Prop where
  wired : Wired hub
  wired' : Wired hub'
  apart : ServicesApart hub
  registry : hub'.registry = hub.registry
  services : SameFor tenantId hub.world.services hub'.world.services
  cached : ∀ key, hub.idempotencyCache.get? key = none → hub'.idempotencyCache.get? key = none

namespace Mirrors

theorem arrived_services (h : Mirrors tenantId hub hub') (draws : Draws) {services services' : Services P.shortTurns}
    (hsame : SameFor tenantId services services') :
    Mirrors tenantId ((arrived hub draws).withServices services) ((arrived hub' draws).withServices services') :=
  ⟨h.wired.of_eq rfl rfl rfl, h.wired'.of_eq rfl rfl rfl, h.apart, h.registry, hsame, h.cached⟩

/-- The tenant's run over both. -/
theorem run_agrees (h : Mirrors tenantId hub hub') {auth : AuthContext} {request : UnifiedRequest} {draws : Draws}
    (hundisturbed : Undisturbed P tenantId hub ⟨.run auth request, draws⟩) (hown : auth.tenantId = tenantId) :
    ∃ calls, Agreement (Lockstep tenantId calls) (fun _ => True)
      ((orchestrator P.builtins P.collaborators P.graph).run (bindUnifiedRequestAuth request auth) (arrived hub draws))
      ((orchestrator P.builtins P.collaborators P.graph).run (bindUnifiedRequestAuth request auth)
        (arrived hub' draws)) := by
  have htenant : (bindUnifiedRequestAuth request auth).tenantId = some tenantId := congrArg some hown
  refine ⟨_, Ochestrate.run_agrees P.graph htenant hundisturbed.plain ?_⟩
  refine ⟨h.wired.arrived draws, h.wired'.arrived draws, h.registry, h.services, rfl, rfl, hundisturbed.stateless hown,
    fun toolCall hcall => ?_, h.cached⟩
  have hfresh := hundisturbed.fresh hown toolCall hcall
  exact (h.cached _ hfresh).trans hfresh.symm

end Mirrors

theorem runAnswer_agrees {R : ToolHub (World P.shortTurns υ) → ToolHub (World P.shortTurns υ) → Prop}
    {Q : UnifiedResponse → Prop} {r r' : EStateM.Result Exc (ToolHub (World P.shortTurns υ)) UnifiedResponse}
    (h : Agreement R Q r r') : runAnswer r = runAnswer r' := by
  cases h <;> rfl

/-- The tenant's requests, and those that write the skills, are answered alike. -/
theorem own_respond (h : Mirrors tenantId hub hub') {call : PlatformCall} (hundisturbed : Undisturbed P tenantId hub call)
    (hown : call.IsOwn tenantId) :
    ((platformApi P).respond hub call).1 = ((platformApi P).respond hub' call).1 ∧
      Mirrors tenantId ((platformApi P).respond hub call).2 ((platformApi P).respond hub' call).2 := by
  obtain ⟨⟨auth, request⟩ | ⟨auth, payload⟩ | ⟨auth, payload⟩, draws⟩ := call
  · have hauth : auth.tenantId = tenantId := hown.resolve_right Bool.false_ne_true
    obtain ⟨calls, hagrees⟩ := h.run_agrees hundisturbed hauth
    have hregistry := registry_respond h.wired ⟨.run auth request, draws⟩
    rw [run_respond] at hregistry
    rw [run_respond, run_respond]
    refine ⟨runAnswer_agrees hagrees, ?_⟩
    have hrel := hagrees.rel
    exact ⟨hrel.wired, hrel.wired', h.apart.of_registry hregistry, hrel.registry, hrel.services, hrel.cached⟩
  · rw [ingest_served, ingest_served]
    exact ⟨rfl, h.arrived_services draws (h.services.addChunks _)⟩
  · rw [skill_served, skill_served, h.services.skills]
    exact ⟨rfl, h.arrived_services draws (h.services.withSkills _)⟩

/-- The other requests of other tenants change nothing that the tenant sees. -/
theorem other_respond (h : Mirrors tenantId hub hub') {call : PlatformCall}
    (hundisturbed : Undisturbed P tenantId hub call) (hother : ¬ call.IsOwn tenantId) :
    Mirrors tenantId ((platformApi P).respond hub call).2 hub' := by
  obtain ⟨hauth, hshared⟩ := not_or.1 hother
  have hregistry := registry_respond h.wired call
  have hmirrors : SameFor tenantId ((platformApi P).respond hub call).2.world.services hub'.world.services →
      (∀ key, ((platformApi P).respond hub call).2.idempotencyCache.get? key = none →
        hub.idempotencyCache.get? key = none) → Mirrors tenantId ((platformApi P).respond hub call).2 hub' :=
    fun hservices hcached => ⟨h.wired.respond call, h.wired', h.apart.of_registry hregistry,
      h.registry.trans hregistry.symm, hservices, fun key hkey => h.cached key (hcached key hkey)⟩
  obtain ⟨⟨auth, request⟩ | ⟨auth, payload⟩ | ⟨auth, payload⟩, draws⟩ := call
  · obtain ⟨r, houtcome, hrespond⟩ := run_served h.wired draws auth request
    rw [hrespond] at hmirrors ⊢
    have hplain : (sessionOf (bindUnifiedRequestAuth request auth)).Plain := hundisturbed.plain
    have htenant : (sessionOf (bindUnifiedRequestAuth request auth)).tenantId ≠ tenantId := hauth
    have hapart : ServicesApart (arrived hub draws) := h.apart
    refine hmirrors ?_ houtcome.ran.cached
    obtain ⟨disk, hdisk, hservices⟩ := houtcome.services
    rw [hdisk hapart] at hservices
    obtain hsame | ⟨answer, hremembered⟩ := hservices
    · exact hsame ▸ h.services
    · exact hremembered ▸ h.services.remember_other _ htenant hplain _
  · rw [ingest_served] at hmirrors ⊢
    refine hmirrors (h.services.addChunks_other fun chunk hchunk => ?_) fun _ hkey => hkey
    rw [(IngestionPipeline.of_mem_ingestText hchunk).1]
    exact hauth
  · exact absurd rfl hshared

/-- A tenant is answered as if the other tenants had made no requests but those that
write skills, and sees the same services afterwards. -/
theorem agents_isolated (tenantId : String) (hw : Wired hub) (hapart : ServicesApart hub) (calls : List PlatformCall)
    (hcalls : (platformApi P).machine.Meets (Undisturbed P tenantId) hub calls) :
    (platformApi P).answers (PlatformCall.IsOwn tenantId) hub (calls.filter (PlatformCall.IsOwn tenantId)) =
        (platformApi P).answers (PlatformCall.IsOwn tenantId) hub calls ∧
      SameFor tenantId ((platformApi P).after hub calls).world.services
        ((platformApi P).after hub (calls.filter (PlatformCall.IsOwn tenantId))).world.services := by
  have hunwinding : (platformApi P).Unwinding (PlatformCall.IsOwn tenantId) (Undisturbed (υ := υ) P tenantId)
      (Mirrors tenantId) :=
    ⟨fun h hundisturbed hown => (own_respond h hundisturbed hown).1,
      fun h hundisturbed hown => (own_respond h hundisturbed hown).2, fun h hundisturbed => other_respond h hundisturbed⟩
  have hmirrors : Mirrors tenantId hub hub := ⟨hw, hw, hapart, rfl, .refl tenantId _, fun _ hkey => hkey⟩
  obtain ⟨hanswers, hafter⟩ := hunwinding.run hcalls hmirrors
  exact ⟨hanswers, hafter.services⟩

/-! ## An email and a greeting -/

/-- A caller of another tenant. -/
def otherCaller : AuthContext := { someCaller with tenantId := "other" }

/-- An email is sent, and a greeting of another tenant changes nothing. -/
theorem mail_isolated :
    let calls : List PlatformCall := [⟨.run someCaller mailRequest, quietDraws "t1"⟩,
      ⟨.run otherCaller greeting, quietDraws "t2"⟩]
    (platformApi emptyPlatform).answers (PlatformCall.IsOwn "acme") mailingHub [⟨.run someCaller mailRequest, quietDraws "t1"⟩] =
      (platformApi emptyPlatform).answers (PlatformCall.IsOwn "acme") mailingHub calls := by
  intro calls
  have hmail : Undisturbed emptyPlatform "acme" mailingHub ⟨.run someCaller mailRequest, quietDraws "t1"⟩ := by
    refine ⟨by decide, fun _ toolCall _ tool htool => ?_, fun _ _ _ => rfl⟩
    rw [mailingHub_tool htool]
    exact fun params => ⟨.ok _, rfl⟩
  have hgreeting : ∀ hub : ToolHub (World emptyPlatform.shortTurns Unit),
      Undisturbed emptyPlatform "acme" hub ⟨.run otherCaller greeting, quietDraws "t2"⟩ :=
    fun hub => ⟨by decide, fun hother => absurd hother (by decide), fun hother => absurd hother (by decide)⟩
  have hcalls : (platformApi emptyPlatform).machine.Meets (Undisturbed emptyPlatform "acme") mailingHub calls :=
    ⟨hmail, fun hub _ => ⟨hgreeting hub, fun _ _ => trivial⟩⟩
  exact (agents_isolated "acme" mailingHub_wired mailingHub_apart calls hcalls).1

end Ochestrate
