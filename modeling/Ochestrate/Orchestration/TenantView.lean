import Ochestrate.Framework.Agree
import Ochestrate.Orchestration.Outcome

/-!
# What a tenant sees of the services

Windows, records and chunks are stored under tenants, skills are shared.
`SameFor` says that two states of the services are the same for a tenant: its
prompts are the same over both (`SameFor.promptFor`), writing for the tenant
keeps it, and writing for another tenant on one side keeps it too. A run of the
tenant's agent, with tools that answer from their parameters and keys that the
cache does not have, is the same over both (`run_agrees`).
-/

namespace Ochestrate

open ToolHub ExecutorAgent

/-- The tenant's chunks, in either mode. -/
def KnowledgeStore.chunksOf (store : KnowledgeStore) (tenantId : String) : List KnowledgeChunk :=
  (store.repository.getD store.chunks).filter fun chunk => chunk.tenantId = tenantId

/-- The tenant's records. -/
def LongTermMemoryStore.recordsOf (store : LongTermMemoryStore) (tenantId : String) : List MemoryRecord :=
  store.records.filter fun record => record.tenantId = tenantId

variable {shortTurns : Nat} {υ : Type}

/-- The services are the same for a tenant. -/
structure SameFor (tenantId : String) (services services' : Services shortTurns) : Prop where
  short : ∀ session : MemoryService.Session, session.tenantId = tenantId → session.Plain →
    MemoryService.readShort services.short session = MemoryService.readShort services'.short session
  ttl : services.long.defaultTtlDays = services'.long.defaultTtlDays
  long : services.long.recordsOf tenantId = services'.long.recordsOf tenantId
  knowledge : services.knowledge.chunksOf tenantId = services'.knowledge.chunksOf tenantId
  skills : services.skills = services'.skills

/-! ## Reading -/

/-- A search ranks the tenant's chunks. -/
theorem KnowledgeStore.search_chunksOf (store : KnowledgeStore) (lower : String → String) (tenantId query : String)
    (limit : Int) :
    store.search lower tenantId query limit = rank lower (store.chunksOf tenantId) (normalized lower query) limit := by
  unfold search chunksOf
  cases store.repository with
  | some repository => rfl
  | none =>
    have hscore : score lower (normalized lower query) = tokenScore lower (normalized lower query) :=
      funext (score_eq_tokenScore _)
    rw [rank, hscore]
    rfl

/-- A search reads the tenant's records. -/
theorem LongTermMemoryStore.search_recordsOf (store : LongTermMemoryStore) (lower : String → String) (now : Time)
    (tenantId userId query : String) (limit : Int) :
    store.search lower now tenantId userId query limit =
      sliceTo limit ((store.recordsOf tenantId).filter (isValid lower now tenantId userId (lower query))) := by
  unfold search recordsOf
  rw [List.filter_filter]
  refine congrArg (sliceTo limit) (List.filter_congr fun record _ => ?_)
  simp only [isValid]
  cases decide (record.tenantId = tenantId) <;> simp

namespace SameFor

variable {tenantId : String} {services services' : Services shortTurns}

theorem refl (tenantId : String) (services : Services shortTurns) : SameFor tenantId services services :=
  ⟨fun _ _ _ => rfl, rfl, rfl, rfl, rfl⟩

theorem retrieve (h : SameFor tenantId services services') (lower : String → String) {request : UnifiedRequest}
    (htenant : request.tenantId = some tenantId) :
    RetrieverAgent.retrieve lower services.knowledge request = RetrieverAgent.retrieve lower services'.knowledge request := by
  simp only [RetrieverAgent.retrieve, htenant, HybridRetriever.retrieve, KnowledgeStore.search_chunksOf, h.knowledge]

theorem readLong (h : SameFor tenantId services services') (lower : String → String) (now : Time) (userId query : String) :
    MemoryService.readLong lower services.long now tenantId userId query =
      MemoryService.readLong lower services'.long now tenantId userId query := by
  rw [MemoryService.readLong, MemoryService.readLong, LongTermMemoryStore.search_recordsOf,
    LongTermMemoryStore.search_recordsOf, h.long]

end SameFor

/-! ## Writing -/

theorem KnowledgeStore.chunksOf_addChunks (store : KnowledgeStore) (chunks : List KnowledgeChunk) (tenantId : String) :
    (store.addChunks chunks).chunksOf tenantId =
      store.chunksOf tenantId ++ chunks.filter fun chunk => chunk.tenantId = tenantId := by
  unfold addChunks chunksOf
  cases store.repository with
  | some repository => exact List.filter_append ..
  | none => exact List.filter_append ..

namespace SameFor

variable {tenantId : String} {services services' : Services shortTurns}

/-- A turn is remembered on both sides. -/
theorem remember (h : SameFor tenantId services services') (draws : Draws) (request : UnifiedRequest) (answer : String) :
    SameFor tenantId (services.remember draws request answer) (services'.remember draws request answer) where
  short session htenant hplain := Windows.window_record_congr (h.short session htenant hplain) _ _
  ttl := h.ttl
  long := by
    have hrecord : services.long.newRecord = services'.long.newRecord := by
      unfold LongTermMemoryStore.newRecord
      rw [h.ttl]
    show List.filter _ (services.long.records ++ _) = List.filter _ (services'.long.records ++ _)
    rw [List.filter_append, List.filter_append, hrecord]
    exact congrArg (· ++ _) h.long
  knowledge := h.knowledge
  skills := h.skills

/-- A turn of another tenant is remembered on one side. -/
theorem remember_other (h : SameFor tenantId services services') (draws : Draws) {request : UnifiedRequest}
    (hother : (sessionOf request).tenantId ≠ tenantId) (hplain : (sessionOf request).Plain) (answer : String) :
    SameFor tenantId (services.remember draws request answer) services' where
  short session htenant hsession := by
    have hkey : MemoryService.sessionKey session ≠ MemoryService.sessionKey (sessionOf request) := by
      intro hkey
      have hsame := MemoryService.sessionKey_inj hsession hplain hkey
      exact hother (hsame ▸ htenant)
    have hwindow := Windows.window_record services.short (MemoryService.sessionKey (sessionOf request))
      (turn request.input answer) (MemoryService.sessionKey session)
    rw [if_neg hkey] at hwindow
    exact hwindow.trans (h.short session htenant hsession)
  ttl := h.ttl
  long := by
    show List.filter _ (services.long.records ++ [_]) = _
    rw [List.filter_append, List.filter_cons_of_neg, List.filter_nil, List.append_nil]
    · exact h.long
    · exact fun htenant => hother (of_decide_eq_true htenant)
  knowledge := h.knowledge
  skills := h.skills

/-- Chunks are added on both sides. -/
theorem addChunks (h : SameFor tenantId services services') (chunks : List KnowledgeChunk) :
    SameFor tenantId { services with knowledge := services.knowledge.addChunks chunks }
      { services' with knowledge := services'.knowledge.addChunks chunks } where
  short := h.short
  ttl := h.ttl
  long := h.long
  knowledge := by rw [KnowledgeStore.chunksOf_addChunks, KnowledgeStore.chunksOf_addChunks, h.knowledge]
  skills := h.skills

/-- Chunks of another tenant are added on one side. -/
theorem addChunks_other (h : SameFor tenantId services services') {chunks : List KnowledgeChunk}
    (hother : ∀ chunk ∈ chunks, chunk.tenantId ≠ tenantId) :
    SameFor tenantId { services with knowledge := services.knowledge.addChunks chunks } services' where
  short := h.short
  ttl := h.ttl
  long := h.long
  knowledge := by
    have hnone : (chunks.filter fun chunk => chunk.tenantId = tenantId) = [] :=
      List.filter_eq_nil_iff.2 fun chunk hchunk => by simpa using hother chunk hchunk
    rw [KnowledgeStore.chunksOf_addChunks, hnone, List.append_nil]
    exact h.knowledge
  skills := h.skills

/-- The skills change on both sides. -/
theorem withSkills (h : SameFor tenantId services services') (skills : SkillCenter) :
    SameFor tenantId { services with skills } { services' with skills } :=
  ⟨h.short, h.ttl, h.long, h.knowledge, rfl⟩

end SameFor

/-! ## The prompt -/

namespace SameFor

variable {P : Platform} {tenantId : String} {services services' : Services P.shortTurns}

theorem skillsOf (h : SameFor tenantId services services') : skillsOf P services = Ochestrate.skillsOf P services' := by
  unfold Ochestrate.skillsOf
  rw [h.skills]

/-- The tenant's prompts are the same. -/
theorem promptFor (h : SameFor tenantId services services') (readAt : Time) (capabilities : List Capability)
    (skills : List SkillContextItem) {request : UnifiedRequest} (htenant : request.tenantId = some tenantId)
    (hplain : (sessionOf request).Plain) (citations : List Citation) :
    P.promptFor services readAt capabilities skills request citations =
      P.promptFor services' readAt capabilities skills request citations := by
  have htenantId : request.tenantId.getD "" = tenantId := by rw [htenant, Option.getD_some]
  have hshort := h.short (sessionOf request) htenantId hplain
  have hlong := h.readLong P.builtins.lower readAt (request.userId.getD "") request.input
  simp only [sessionOf, htenantId] at hshort
  simp only [Platform.promptFor, htenantId, hshort, hlong]

end SameFor

/-! ## Hubs in lockstep -/

/-- Two hubs that answer the calls of a tenant alike: what they write to the audit log
has the same ids and failures, the tools called answer from their parameters, and
the caches have the same entries for the calls. -/
structure Lockstep (tenantId : String) (calls : List ToolCall) (hub hub' : ToolHub (World shortTurns υ)) : Prop where
  wired : Wired hub
  wired' : Wired hub'
  registry : hub'.registry = hub.registry
  services : SameFor tenantId hub.world.services hub'.world.services
  draws : hub'.world.draws = hub.world.draws
  recorded : hub'.world.recorded = hub.world.recorded
  stateless : ∀ call ∈ calls, ∀ tool, hub.registry.get? call.toolName = some tool → tool.Stateless
  cache : ∀ call ∈ calls,
    hub'.idempotencyCache.get? call.idempotencyKey = hub.idempotencyCache.get? call.idempotencyKey
  cached : ∀ key, hub.idempotencyCache.get? key = none → hub'.idempotencyCache.get? key = none

namespace Lockstep

variable {tenantId : String} {calls : List ToolCall} {hub hub' : ToolHub (World shortTurns υ)}

/-- Counters, runs and the events of the log may differ. -/
theorem updated (h : Lockstep tenantId calls hub hub') (metrics metrics' : MetricsRegistry) (runs runs' : List ToolRun)
    (log log' : List (AuditEvent AuditPayload)) :
    Lockstep tenantId calls { hub with metrics, runs, audit := { hub.audit with log } }
      { hub' with metrics := metrics', runs := runs', audit := { hub'.audit with log := log' } } :=
  ⟨h.wired.of_eq rfl rfl rfl, h.wired'.of_eq rfl rfl rfl, h.registry, h.services, h.draws, h.recorded, h.stateless,
    h.cache, h.cached⟩

/-- Both have recorded one event more. -/
theorem next (h : Lockstep tenantId calls hub hub') :
    Lockstep tenantId calls { hub with world := hub.world.next } { hub' with world := hub'.world.next } :=
  ⟨h.wired.of_eq rfl rfl rfl, h.wired'.of_eq rfl rfl rfl, h.registry, h.services, h.draws,
    congrArg (· + 1) h.recorded, h.stateless, h.cache, h.cached⟩

/-- Both keep one result. -/
theorem kept (h : Lockstep tenantId calls hub hub') (tool : Tool (World shortTurns υ)) (call : ToolCall)
    (result : ToolInvokeResult) : Lockstep tenantId calls (keep hub tool call result) (keep hub' tool call result) := by
  unfold keep
  split
  · refine ⟨h.wired.of_eq rfl rfl rfl, h.wired'.of_eq rfl rfl rfl, h.registry, h.services, h.draws, h.recorded,
      h.stateless, fun call' hcall' => ?_, fun key => ?_⟩
    · rw [Dict.get?_set, Dict.get?_set, h.cache call' hcall']
    · rw [Dict.get?_set, Dict.get?_set]
      split
      · exact id
      · exact h.cached key
  · exact h

theorem record_agrees (payload : AuditPayload) :
    Agrees (@Lockstep shortTurns υ tenantId calls) (record payload) (record payload) (fun _ => True) := by
  intro hub hub' h
  have hfault : hub'.world.fault = hub.world.fault := by rw [World.fault, h.draws, h.recorded, World.fault]
  have heventId : hub'.world.eventId = hub.world.eventId := by rw [World.eventId, h.draws, h.recorded, World.eventId]
  rw [record_wired h.wired, record_wired h.wired', hfault, heventId]
  cases hub.world.fault with
  | none => exact .ok trivial (h.next.updated _ _ _ _ _ _)
  | before exc => exact .error h.next
  | after exc => exact .error (h.next.updated _ _ _ _ _ _)

theorem runTool_agrees {tool : Tool (World shortTurns υ)} (hstateless : tool.Stateless) (call : ToolCall) (params : Params) :
    Agrees (Lockstep tenantId calls) (runTool tool call params) (runTool tool call params) (fun _ => True) := by
  intro hub hub' h
  obtain ⟨result, hresult⟩ := hstateless params
  unfold runTool
  rw [hresult]
  cases result with
  | ok output => exact .ok trivial (h.updated _ _ _ _ _ _)
  | error exc => exact .error (h.updated _ _ _ _ _ _)

theorem dispatch_agrees {tool : Tool (World shortTurns υ)} (hstateless : tool.Stateless) (call : ToolCall) :
    Agrees (Lockstep tenantId calls) (dispatch tool call) (dispatch tool call) (fun _ => True) := by
  refine Agrees.bind (runTool_agrees hstateless call _) fun output _ => ?_
  refine Agrees.bind (Agrees.modify fun hub hub' h => h.updated _ _ _ _ _ _) fun _ _ => ?_
  refine Agrees.bind (record_agrees _) fun auditRef _ => ?_
  exact Agrees.bind (Agrees.modify fun hub hub' h => h.kept tool call _) fun _ _ => Agrees.pure trivial

theorem invoke_agrees (B : Builtins) {call : ToolCall} (hcall : call ∈ calls) :
    Agrees (@Lockstep shortTurns υ tenantId calls) (invoke B call) (invoke B call)
      (fun _ => True) := by
  refine Agrees.get_bind fun hub hub' h => ?_
  rw [h.registry]
  cases htool : hub.registry.get? call.toolName with
  | none => exact .error h
  | some tool =>
    have hcached : hub'.cached tool call = hub.cached tool call := by
      unfold ToolHub.cached
      rw [h.cache call hcall]
    have hinc : ∀ metricName, Agrees (@Lockstep shortTurns υ tenantId calls) (inc metricName)
        (inc metricName) (fun _ => True) :=
      fun metricName => Agrees.modify fun hub hub' h => h.updated _ _ _ _ _ _
    dsimp only
    rw [hcached]
    split
    · exact (hinc _).bind (fun _ _ => Agrees.throw _) hub hub' h
    · cases hub.cached tool call with
      | some hit => exact (hinc _).bind (fun _ _ => Agrees.pure trivial) hub hub' h
      | none => exact dispatch_agrees (h.stateless call hcall tool htool) call hub hub' h

/-! ## A run of the tenant -/

theorem answer_agrees {call : ToolCall} {r r' : EStateM.Result Exc (ToolHub (World shortTurns υ)) ToolInvokeResult}
    (h : Agreement (Lockstep tenantId calls) (fun _ => True) r r') : answer call r = answer call r' := by
  cases h <;> rfl

/-- Calls one after the other. -/
theorem afterCalls (h : Lockstep tenantId calls hub hub') (B : Builtins) {made : List ToolCall}
    (hmade : ∀ call ∈ made, call ∈ calls) :
    answers B made hub = answers B made hub' ∧
      Lockstep tenantId calls (ExecutorAgent.afterCalls B made hub) (ExecutorAgent.afterCalls B made hub') := by
  induction made generalizing hub hub' with
  | nil => exact ⟨rfl, h⟩
  | cons call made ih =>
    have hinvoke := invoke_agrees B (hmade call (List.mem_cons_self ..)) hub hub' h
    obtain ⟨hanswers, hafter⟩ := ih hinvoke.rel fun call' hcall' => hmade call' (List.mem_cons_of_mem _ hcall')
    refine ⟨?_, hafter⟩
    rw [answers, answers, answer_agrees hinvoke, hanswers]

theorem execute_agrees (B : Builtins) (steps : List Step) (c : ExecuteContext) :
    Agrees (@Lockstep shortTurns υ tenantId (callsOf B c steps).1) (execute B steps c)
      (execute B steps c) (fun _ => True) := by
  intro hub hub' h
  by_cases hauto : c.policy.autoExecute = true
  · obtain ⟨hanswers, hafter⟩ := h.afterCalls B fun _ hcall => hcall
    rw [execute_eq B c _ _ hauto, execute_eq B c _ _ hauto, hanswers]
    cases (callsOf B c steps).2 with
    | none => exact .ok trivial hafter
    | some exc => exact .error hafter
  · unfold execute
    rw [if_neg hauto]
    exact .ok trivial h

end Lockstep

section Run

variable {P : Platform} {tenantId : String} {calls : List ToolCall} {hub hub' : ToolHub (World P.shortTurns υ)}
  {request : UnifiedRequest}

theorem finished_agrees (h : Lockstep tenantId calls hub hub') (htenant : request.tenantId = some tenantId)
    (hplain : (sessionOf request).Plain) (steps : List Step) (citations : List Citation) (actions : List Action)
    (skills : List SkillContextItem) :
    finished hub' request steps citations actions skills = finished hub request steps citations actions skills := by
  have hcapabilities : capabilities hub' = capabilities hub := by rw [capabilities, h.registry, capabilities]
  have hprompt := h.services.promptFor hub.world.draws.readAt (capabilities hub) skills htenant hplain citations
  unfold finished modelOutput
  rw [hcapabilities, h.draws, hprompt]

theorem afterExecute_agrees (htenant : request.tenantId = some tenantId) (hplain : (sessionOf request).Plain)
    (graph : Bool) (steps : List Step) (citations : List Citation) (actions : List Action)
    (h : Lockstep tenantId calls hub hub') :
    Agreement (Lockstep tenantId calls) (fun _ => True)
      ((orchestrator P.builtins P.collaborators graph).afterExecute request hub.world.draws.traceId steps citations
        actions hub)
      ((orchestrator P.builtins P.collaborators graph).afterExecute request hub'.world.draws.traceId steps citations
        actions hub') := by
  cases hskills : skillsOf P hub.world.services with
  | error exc =>
    have hskills' : skillsOf P hub'.world.services = .error exc := h.services.skillsOf ▸ hskills
    rw [afterExecute_error steps citations actions graph hskills, afterExecute_error steps citations actions graph hskills']
    exact .error h
  | ok skills =>
    have hskills' : skillsOf P hub'.world.services = .ok skills := h.services.skillsOf ▸ hskills
    rw [afterExecute_eq steps citations actions graph hskills, afterExecute_eq steps citations actions graph hskills',
      finished_agrees h htenant hplain]
    refine ((Lockstep.record_agrees _).bind fun _ _ => Agrees.pure trivial) _ _ ?_
    refine ⟨h.wired.of_eq rfl rfl rfl, h.wired'.of_eq rfl rfl rfl, h.registry, ?_, h.draws, h.recorded, h.stateless,
      h.cache, h.cached⟩
    rw [remembering, remembering, h.draws]
    exact h.services.remember _ _ _

/-- A run of the tenant goes the same way over both hubs. -/
theorem run_agrees (graph : Bool) (htenant : request.tenantId = some tenantId) (hplain : (sessionOf request).Plain)
    (h : Lockstep tenantId (callsOf P.builtins (executeContext request hub.world.draws.traceId)
      (PlannerAgent.plan P.builtins request)).1 hub hub') :
    Agreement (Lockstep tenantId (callsOf P.builtins (executeContext request hub.world.draws.traceId)
        (PlannerAgent.plan P.builtins request)).1) (fun _ => True)
      ((orchestrator P.builtins P.collaborators graph).run request hub)
      ((orchestrator P.builtins P.collaborators graph).run request hub') := by
  rw [run_stages, run_stages, h.draws, ← h.services.retrieve P.builtins.lower htenant]
  have hcounted : Lockstep tenantId _ (counted hub) (counted hub') := h.updated _ _ _ _ _ _
  have hexecute := Lockstep.execute_agrees _ _ _ _ _ hcounted
  have huntouched := (execute_untouched P.builtins (PlannerAgent.plan P.builtins request)
    (executeContext request hub.world.draws.traceId)).finalState (counted hub) hcounted.wired
  obtain ⟨actions, hub₁, hub₁', hok, hok', -, hr⟩ | ⟨exc, hub₁, hub₁', herror, herror', hr⟩ := hexecute.both
  · rw [bind_ok hok, bind_ok hok']
    rw [hok] at huntouched
    have htrace : hub₁.world.draws.traceId = hub.world.draws.traceId := congrArg Draws.traceId huntouched.draws
    have hafter := afterExecute_agrees htenant hplain graph (PlannerAgent.plan P.builtins request)
      (RetrieverAgent.retrieve P.builtins.lower hub.world.services.knowledge request) actions hr
    rw [hr.draws, htrace] at hafter
    exact hafter
  · rw [bind_error herror, bind_error herror']
    exact .error hr

end Run

end Ochestrate
