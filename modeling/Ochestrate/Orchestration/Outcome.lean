import Ochestrate.Agents.Outcomes
import Ochestrate.Orchestration.Platform

/-!
# What a run leaves behind

A run over the container's services ends in one of three ways (`RunOutcome`): it
stops before anything is remembered, it raises after the turn was remembered, or
it returns, and then what was remembered has the returned answer. Tools act on
the disk and on their own part of the world, and recording an event on the audit
log only (`Untouched`), so nothing else changes what the services keep.
-/

namespace Ochestrate

open ToolHub ExecutorAgent

variable {shortTurns : Nat} {υ : Type}

/-- The hub as the container builds it: its audit log draws from the request, and
its tools act on the disk and on their own part of the world. -/
structure Wired (hub : ToolHub (World shortTurns υ)) : Prop where
  uuid4 : hub.audit.uuid4 = World.uuid4
  append : hub.audit.append = World.append
  tools : ∀ tool ∈ hub.registry.values, ∃ inner : Tool (Disk Json × υ), tool = inner.onTools

/-- A hub with the same registry, ids and failures is wired alike. -/
theorem Wired.of_eq {hub hub' : ToolHub (World shortTurns υ)} (hw : Wired hub)
    (huuid4 : hub'.audit.uuid4 = hub.audit.uuid4) (happend : hub'.audit.append = hub.audit.append)
    (hregistry : hub'.registry = hub.registry) : Wired hub' :=
  ⟨huuid4.trans hw.uuid4, happend.trans hw.append, hregistry ▸ hw.tools⟩

/-- The counters that calls of tools increment. -/
def toolCounters : List String := ["tool.success", "tool.permission_denied", "tool.idempotency_hit"]

/-- The events of the orchestrator itself. -/
def completedEvents {ω : Type} (hub : ToolHub ω) : List AuditPayload :=
  (hub.audit.log.map (·.payload)).filter fun payload => payload.params = none

/-- A tool that does not write where the skills are. -/
def Tool.KeepsServices (tool : Tool (World shortTurns υ)) : Prop :=
  ∀ params world, (finalState (tool.run params world)).services = world.services

/-- No tool writes where the skills are. -/
def ServicesApart (hub : ToolHub (World shortTurns υ)) : Prop := ∀ tool ∈ hub.registry.values, tool.KeepsServices

theorem ServicesApart.of_registry {hub hub' : ToolHub (World shortTurns υ)} (h : ServicesApart hub)
    (hregistry : hub'.registry = hub.registry) : ServicesApart hub' := by
  unfold ServicesApart
  rw [hregistry]
  exact h

/-- What calls of tools leave as it is. -/
structure ToolsOnly (hub hub' : ToolHub (World shortTurns υ)) : Prop where
  wired : Wired hub'
  services : ∃ disk, hub'.world.services = hub.world.services.withDisk disk
  apart : ServicesApart hub → hub'.world.services = hub.world.services
  draws : hub'.world.draws = hub.world.draws
  registry : hub'.registry = hub.registry
  cached : ∀ key, hub'.idempotencyCache.get? key = none → hub.idempotencyCache.get? key = none
  counts : ∀ name ∉ toolCounters, hub'.metrics.count name = hub.metrics.count name
  completed : completedEvents hub' = completedEvents hub

/-- A wired hub is changed as calls of tools change it. -/
def Untouched (hub hub' : ToolHub (World shortTurns υ)) : Prop := Wired hub → ToolsOnly hub hub'

namespace Untouched

theorem refl (hub : ToolHub (World shortTurns υ)) : Untouched hub hub := fun hw =>
  ⟨hw, ⟨hub.world.services.skills.disk, rfl⟩, fun _ => rfl, rfl, rfl, fun _ h => h, fun _ _ => rfl, rfl⟩

theorem trans {hub hub' hub'' : ToolHub (World shortTurns υ)} (h : Untouched hub hub') (h' : Untouched hub' hub'') :
    Untouched hub hub'' := by
  intro hw
  have hfirst := h hw
  have hsecond := h' hfirst.wired
  obtain ⟨disk, hservices⟩ := hfirst.services
  obtain ⟨disk', hservices'⟩ := hsecond.services
  exact ⟨hsecond.wired, ⟨disk', by rw [hservices', hservices]; rfl⟩,
    fun h => (hsecond.apart (h.of_registry hfirst.registry)).trans (hfirst.apart h), hsecond.draws.trans hfirst.draws,
    hsecond.registry.trans hfirst.registry, fun key h => hfirst.cached key (hsecond.cached key h),
    fun name hname => (hsecond.counts name hname).trans (hfirst.counts name hname),
    hsecond.completed.trans hfirst.completed⟩

theorem of_eq {hub hub' : ToolHub (World shortTurns υ)} (huuid4 : hub'.audit.uuid4 = hub.audit.uuid4)
    (happend : hub'.audit.append = hub.audit.append) (hlog : completedEvents hub' = completedEvents hub)
    (hregistry : hub'.registry = hub.registry) (hservices : hub'.world.services = hub.world.services)
    (hdraws : hub'.world.draws = hub.world.draws)
    (hcached : ∀ key, hub'.idempotencyCache.get? key = none → hub.idempotencyCache.get? key = none)
    (hcounts : ∀ name ∉ toolCounters, hub'.metrics.count name = hub.metrics.count name) : Untouched hub hub' :=
  fun hw => ⟨hw.of_eq huuid4 happend hregistry,
    ⟨hub.world.services.skills.disk, hservices⟩, fun _ => hservices, hdraws, hregistry, hcached, hcounts, hlog⟩

theorem of_metrics {hub : ToolHub (World shortTurns υ)} {metricName : String} (h : metricName ∈ toolCounters) :
    Untouched hub { hub with metrics := hub.metrics.inc metricName } := by
  refine .of_eq rfl rfl rfl rfl rfl rfl (fun _ h => h) fun name hname => ?_
  have hne : name ≠ metricName := fun heq => hname (heq ▸ h)
  rw [MetricsRegistry.count_inc, if_neg hne, Nat.add_zero]

end Untouched

/-- Recording an event in a wired hub: its id and its failure are the request's. -/
theorem record_wired {hub : ToolHub (World shortTurns υ)} (hw : Wired hub) (payload : AuditPayload) :
    record payload hub = match hub.world.fault with
      | .none => .ok hub.world.eventId (hub.logged payload hub.world.eventId hub.world.next)
      | .before exc => .error exc { hub with world := hub.world.next }
      | .after exc => .error exc (hub.logged payload hub.world.eventId hub.world.next) := by
  have huuid4 : outside hub.audit.uuid4 hub = .ok hub.world.eventId hub := by
    rw [hw.uuid4]
    rfl
  have happend : outside hub.audit.append hub = .ok hub.world.fault { hub with world := hub.world.next } := by
    rw [hw.append]
    rfl
  unfold record
  rw [get_bind, bind_ok huuid4, get_bind, bind_ok happend]
  cases hub.world.fault with
  | none => rfl
  | before exc => rfl
  | after exc => rfl

/-- An event of a tool in the log. -/
theorem completedEvents_logged {hub : ToolHub (World shortTurns υ)} {payload : AuditPayload} (h : payload.params ≠ none)
    (eventId : String) (world : World shortTurns υ) :
    completedEvents (hub.logged payload eventId world) = completedEvents hub := by
  simp [completedEvents, logged, h]

theorem record_untouched {payload : AuditPayload} (h : payload.params ≠ none) :
    Along Untouched (record payload : EStateM Exc (ToolHub (World shortTurns υ)) String) (fun _ => True) := by
  refine Along.of_finalState fun hub hw => ?_
  rw [record_wired hw]
  cases hub.world.fault with
  | none => exact Untouched.of_eq rfl rfl (completedEvents_logged h _ _) rfl rfl rfl (fun _ h => h) (fun _ _ => rfl) hw
  | before exc => exact Untouched.of_eq rfl rfl rfl rfl rfl rfl (fun _ h => h) (fun _ _ => rfl) hw
  | after exc => exact Untouched.of_eq rfl rfl (completedEvents_logged h _ _) rfl rfl rfl (fun _ h => h) (fun _ _ => rfl) hw

/-- The world once tools have changed the disk and their own part of it. -/
def World.withTools (world : World shortTurns υ) (disk : Disk Json) (tools : υ) : World shortTurns υ :=
  { world with services := world.services.withDisk disk, tools }

/-- A run of a tool changes the disk and its own part of the world. -/
theorem onTools_run (inner : Tool (Disk Json × υ)) (params : Params) (world : World shortTurns υ) :
    ∃ disk tools, finalState ((inner.onTools : Tool (World shortTurns υ)).run params world) = world.withTools disk tools := by
  simp only [Tool.onTools, zoomed]
  cases inner.run params (world.services.skills.disk, world.tools) with
  | ok output changed => exact ⟨changed.1, changed.2, rfl⟩
  | error exc changed => exact ⟨changed.1, changed.2, rfl⟩

/-- The hub after a run of a registered tool. -/
theorem run_untouched {hub : ToolHub (World shortTurns υ)} {toolName : String} {tool : Tool (World shortTurns υ)}
    (h : hub.registry.get? toolName = some tool) {params : Params}
    {r : EStateM.Result Exc (World shortTurns υ) (Dict String Json)} (hrun : tool.run params hub.world = r)
    (runs : List ToolRun) : Untouched hub { hub with world := finalState r, runs } := by
  intro hw
  have hmem : tool ∈ hub.registry.values := hub.registry.mem_values.2 ⟨toolName, h⟩
  obtain ⟨inner, hinner⟩ := hw.tools tool hmem
  obtain ⟨disk, tools, hworld⟩ := onTools_run inner params hub.world
  rw [← hinner, hrun] at hworld
  have hservices := congrArg World.services hworld
  have hdraws := congrArg World.draws hworld
  refine ⟨hw.of_eq rfl rfl rfl, ⟨disk, hservices⟩, fun hservicesApart => ?_, hdraws, rfl, fun _ h => h,
    fun _ _ => rfl, rfl⟩
  exact hrun ▸ hservicesApart tool hmem params hub.world

/-- The tool's run has returned and is counted. -/
theorem completed_untouched {hub : ToolHub (World shortTurns υ)} {call : ToolCall} {tool : Tool (World shortTurns υ)}
    (h : hub.registry.get? call.toolName = some tool) {output : Dict String Json} {world : World shortTurns υ}
    (hrun : tool.run call.injected hub.world = .ok output world) : Untouched hub (hub.completed call output world) := by
  have hran := run_untouched h hrun (hub.runs ++ [⟨call, call.injected, some output⟩])
  exact hran.trans (.of_metrics (by decide))

theorem invoked_untouched {hub : ToolHub (World shortTurns υ)} {call : ToolCall}
    {r : EStateM.Result Exc (ToolHub (World shortTurns υ)) ToolInvokeResult} (h : Invoked hub call r) :
    Untouched hub (finalState r) := by
  have hpayload : (auditPayload call).params ≠ none := Option.some_ne_none _
  cases h with
  | unregistered => exact .refl hub
  | denied => exact .of_metrics (by decide)
  | hit => exact .of_metrics (by decide)
  | raised htool _ _ hrun => exact run_untouched htool hrun _
  | @unrecorded _ output world _ _ htool _ _ hrun hrecord =>
    have hrecorded := (record_untouched hpayload).finalState (hub.completed call output world)
    rw [hrecord] at hrecorded
    exact (completed_untouched htool hrun).trans hrecorded
  | @returned tool output world auditRef hub' htool _ _ hrun hrecord =>
    have hrecorded := (record_untouched hpayload).finalState (hub.completed call output world)
    rw [hrecord] at hrecorded
    refine ((completed_untouched htool hrun).trans hrecorded).trans ?_
    unfold keep
    split
    · refine .of_eq rfl rfl rfl rfl rfl rfl (fun key hkey => ?_) fun _ _ => rfl
      simp only [finalState_ok, Dict.get?_set] at hkey
      split at hkey
      · cases hkey
      · exact hkey
    · exact .refl _

/-! ## The executor -/

/-- What each step of a plan does to the hub, the executor does. -/
theorem execute_along {ω : Type} {R : ToolHub ω → ToolHub ω → Prop} (hrefl : ∀ hub, R hub hub)
    (htrans : ∀ ⦃a b c⦄, R a b → R b c → R a c) (B : Builtins)
    (hinvoke : ∀ call hub, R hub (finalState (invoke B call hub))) (steps : List Step) (c : ExecuteContext) :
    Along R (execute B steps c) (fun _ => True) := by
  have hstep : ∀ actions step, Along R (executeStep B c actions step) (fun _ => True) := by
    intro actions step
    cases step with
    | validatePermissions => exact Along.pure hrefl trivial
    | respond => exact Along.pure hrefl trivial
    | tool toolName planned =>
      simp only [executeStep]
      split
      · exact Along.throw hrefl _
      · refine Along.bind (Q := fun _ => True) htrans (Along.of_finalState fun hub => ?_)
          fun _ _ => Along.pure hrefl trivial
        rw [invokeStep_eq]
        exact hinvoke _ hub
  unfold execute
  split
  · generalize ([] : List Action) = actions
    induction steps generalizing actions with
    | nil => exact Along.pure hrefl trivial
    | cons step steps ih =>
      rw [List.foldlM_cons]
      exact Along.bind htrans (hstep actions step) fun actions' _ => ih actions'
  · exact Along.pure hrefl trivial

theorem execute_untouched (B : Builtins) (steps : List Step) (c : ExecuteContext) :
    Along Untouched (execute B steps c : EStateM Exc (ToolHub (World shortTurns υ)) (List Action)) (fun _ => True) :=
  execute_along .refl (fun _ _ _ => .trans) B (fun call hub => invoked_untouched (invoke_cases B hub call)) steps c

/-! ## The prompt and the response -/

namespace Platform

variable (P : Platform)

/-- The evidence in a prompt. -/
def evidence (citations : List Citation) : String := joinLines (citations.map (·.snippet))

/-- What the model is asked, from what the services keep. -/
def promptFor (services : Services P.shortTurns) (readAt : Time) (capabilities : List Capability)
    (skills : List SkillContextItem) (request : UnifiedRequest) (citations : List Citation) : String :=
  let tenantId := request.tenantId.getD ""
  let userId := request.userId.getD ""
  let shortMemory := joinLines (MemoryService.readShort services.short ⟨tenantId, userId, request.sessionId⟩)
  let longMemory := joinLines (MemoryService.readLong P.builtins.lower services.long readAt tenantId userId request.input)
  ContextManager.buildContext P.budget {
    systemPolicy := "Use the assembled prompt content as the task context."
    taskContext := PromptAssemblyService.assemble P.builtins P.prompt (PromptAssemblyInput.toService {
      systemPolicy := "Enterprise assistant with high-accuracy and citation requirements."
      task := request.input, evidence := evidence citations, shortMemory, longMemory
      tools := capabilities, skills, maxSkillItems := P.maxSkillItems, skillContextMode := request.skillContextMode })
    retrievalEvidence := evidence citations, shortMemory, longMemory }

variable {P}

theorem promptFor_ne_empty (services : Services P.shortTurns) (readAt : Time) (capabilities : List Capability)
    (skills : List SkillContextItem) (request : UnifiedRequest) (citations : List Citation) :
    P.promptFor services readAt capabilities skills request citations ≠ "" := by
  have hcomposed : ∀ layers, ContextManager.composed layers ≠ "" := by
    intro layers hempty
    have hwords := ContextManager.length_split_composed layers
    rw [hempty] at hwords
    exact absurd hwords (by simp [split])
  unfold promptFor
  dsimp only
  unfold ContextManager.buildContext
  split
  · exact hcomposed _
  · unfold Summarizer.summarize
    dsimp only
    split
    · exact hcomposed _
    · intro hempty
      have hlength := congrArg String.length hempty
      simp only [String.length_append] at hlength
      exact absurd hlength (by simp)

end Platform

/-! ## The collaborators on the hub -/

section Stages

variable {P : Platform} (hub : ToolHub (World P.shortTurns υ)) (request : UnifiedRequest)

/-- The tools as the prompt lists them. -/
def capabilities {ω : Type} (hub : ToolHub ω) : List Capability :=
  hub.registry.values.map fun tool => ⟨tool.name, tool.description, tool.requiredRoles, tool.idempotent⟩

/-- The items of the skill context, or the exception that loading them raises. -/
def skillsOf (P : Platform) (services : Services P.shortTurns) : Except Exc (List SkillContextItem) :=
  match SkillContextService.load P.builtins P.int P.scans services.skills with
  | .ok items _ => .ok items
  | .error exc _ => .error exc

theorem loadSkills_eq :
    (P.collaborators.overHub : Collaborators (ToolHub (World P.shortTurns υ))).loadSkills hub =
      (MonadExcept.ofExcept (skillsOf P hub.world.services) : EStateM Exc (ToolHub (World P.shortTurns υ)) _) hub := by
  show outside P.loadSkills hub = _
  unfold outside zoomed Platform.loadSkills skillsOf
  cases SkillContextService.load P.builtins P.int P.scans hub.world.services.skills with
  | ok items center => rfl
  | error exc center => rfl

/-- The prompt is composed from what the services keep, and nothing changes. -/
theorem composePrompt_eq (graph : Bool) (citations : List Citation) :
    (orchestrator P.builtins P.collaborators graph).composePrompt request citations hub =
      match skillsOf P hub.world.services with
      | .ok skills =>
        .ok (P.promptFor hub.world.services hub.world.draws.readAt (capabilities hub) skills request citations) hub
      | .error exc => .error exc hub := by
  have hload := loadSkills_eq hub
  unfold OrchestratorService.composePrompt
  cases hskills : skillsOf P hub.world.services with
  | error exc =>
    rw [hskills] at hload
    exact bind_error hload _
  | ok skills =>
    rw [hskills] at hload
    exact bind_ok hload _

end Stages

/-! ## Completing a run -/

/-- The session that a request belongs to. -/
def sessionOf (request : UnifiedRequest) : MemoryService.Session :=
  ⟨request.tenantId.getD "", request.userId.getD "", request.sessionId⟩

/-- The turn that is remembered. -/
def turn (input answer : String) : String := "Q:" ++ input ++ "\nA:" ++ firstChars answer 300

/-- The services once a turn is in the short-term and the long-term memory. -/
def Services.remember (services : Services shortTurns) (draws : Draws) (request : UnifiedRequest) (answer : String) :
    Services shortTurns :=
  { services with
    short := (MemoryService.writeShort services.short (sessionOf request) (turn request.input answer)).1
    long := (MemoryService.writeLong services.long draws.writeAt (sessionOf request).tenantId (sessionOf request).userId
      ("Preferred context from trace " ++ draws.traceId) (some ["auto-summary"])).1 }

/-- The response of a run from the results of its stages. -/
def responseOf (state : OrchestrationState) : UnifiedResponse where
  answer := state.answer
  citations := state.citations
  actions := state.actions
  confidence := state.confidence
  traceId := state.traceId
  memoryUpdates := [{ memoryType := .short, content := turn state.request.input state.answer },
    { memoryType := .long, content := "Preferred context from trace " ++ state.traceId }]
  fallbackTriggered := state.fallbackTriggered

/-- The event of a run. -/
def completedPayload (state : OrchestrationState) (skills : List SkillContextItem) : AuditPayload :=
  .completed state.traceId (state.request.tenantId.getD "") state.request.taskType state.confidence
    state.citations.length state.actions.length skills.length

section Complete

variable {P : Platform} {hub : ToolHub (World P.shortTurns υ)} {state : OrchestrationState} {skills : List SkillContextItem}

/-- The hub once the turn is remembered. -/
def remembering (hub : ToolHub (World P.shortTurns υ)) (state : OrchestrationState) : ToolHub (World P.shortTurns υ) :=
  { hub with world := { hub.world with
      services := hub.world.services.remember hub.world.draws state.request state.answer } }

/-- Both writes of the memory. -/
theorem remember_bind {α : Type} (K : Collaborators (ToolHub (World P.shortTurns υ))) (hK : K = P.collaborators.overHub)
    (f : MemoryUpdate → MemoryUpdate → EStateM Exc (ToolHub (World P.shortTurns υ)) α) :
    (do
      let shortUpdate ← K.writeShort (state.request.tenantId.getD "") (state.request.userId.getD "")
        state.request.sessionId (turn state.request.input state.answer)
      let longUpdate ← K.writeLong (state.request.tenantId.getD "") (state.request.userId.getD "")
        ("Preferred context from trace " ++ hub.world.draws.traceId) ["auto-summary"]
      f shortUpdate longUpdate) hub =
      f { memoryType := .short, content := turn state.request.input state.answer }
        { memoryType := .long, content := "Preferred context from trace " ++ hub.world.draws.traceId }
        (remembering hub state) := by
  subst hK
  rfl

/-- The turn is remembered first; then the event is recorded, and with a
confidence of at least `0.4` nothing is counted. -/
theorem complete_eq (graph : Bool) (hskills : skillsOf P hub.world.services = .ok skills)
    (htrace : state.traceId = hub.world.draws.traceId) (hconfidence : ¬ state.confidence < lowConfidence) :
    (orchestrator P.builtins P.collaborators graph).complete state hub =
      (record (completedPayload state skills) >>= fun _ => pure (responseOf state)) (remembering hub state) := by
  have hload := loadSkills_eq (remembering hub state)
  have hsame : skillsOf P (remembering hub state).world.services = .ok skills := hskills
  rw [hsame] at hload
  unfold OrchestratorService.complete responseOf
  dsimp only
  rw [htrace]
  refine (remember_bind _ rfl _).trans ?_
  refine (bind_ok hload _).trans ?_
  rw [if_neg hconfidence, ← htrace]
  rfl

end Complete

/-! ## After the tools -/

section AfterExecute

variable {P : Platform} (hub : ToolHub (World P.shortTurns υ)) (request : UnifiedRequest) (steps : List Step)
  (citations : List Citation) (actions : List Action) (skills : List SkillContextItem)

/-- What the model answers. -/
def modelOutput : String × Bool :=
  ModelRouter.output P.builtins P.routing
    (P.promptFor hub.world.services hub.world.draws.readAt (capabilities hub) skills request citations)
    request.taskType.value request.policy.sensitivity.value

/-- The results of all stages. -/
def finished : OrchestrationState :=
  let output := modelOutput hub request citations skills
  let reviewed := ReviewerAgent.review output.1 citations actions.length
  { request, traceId := hub.world.draws.traceId, plannerSteps := steps, citations, actions
    answer := reviewed.1, confidence := reviewed.2, fallbackTriggered := output.2 }

variable {hub request skills}

/-- The model never answers with an empty text, so no confidence is low. -/
theorem not_lowConfidence : ¬ (finished hub request steps citations actions skills).confidence < lowConfidence := by
  intro hlow
  rw [finished, ReviewerAgent.review_low_iff] at hlow
  exact ModelRouter.output_ne_empty _ _ (Platform.promptFor_ne_empty _ _ _ _ _ _) _ _ hlow

theorem afterExecute_error {exc : Exc} (graph : Bool) (h : skillsOf P hub.world.services = .error exc) (traceId : String) :
    (orchestrator P.builtins P.collaborators graph).afterExecute request traceId steps citations actions hub =
      .error exc hub := by
  have hprompt := composePrompt_eq hub request graph citations
  rw [h] at hprompt
  exact bind_error hprompt _

theorem afterExecute_eq (graph : Bool) (h : skillsOf P hub.world.services = .ok skills) :
    (orchestrator P.builtins P.collaborators graph).afterExecute request hub.world.draws.traceId steps citations actions
        hub =
      (record (completedPayload (finished hub request steps citations actions skills) skills) >>= fun _ =>
        pure (responseOf (finished hub request steps citations actions skills)))
        (remembering hub (finished hub request steps citations actions skills)) := by
  have hprompt := composePrompt_eq hub request graph citations
  rw [h] at hprompt
  have hgenerate : (orchestrator P.builtins P.collaborators graph).generate
      (P.promptFor hub.world.services hub.world.draws.readAt (capabilities hub) skills request citations)
      request.taskType request.policy.sensitivity hub = .ok (modelOutput hub request citations skills) hub := by
    have hworld := ModelRouter.generate_init P.builtins P.routing
      (Platform.promptFor_ne_empty hub.world.services hub.world.draws.readAt (capabilities hub) skills request citations)
      request.taskType.value request.policy.sensitivity.value hub.world
    show outside _ hub = _
    exact zoomed_ok hworld
  refine (bind_ok hprompt _).trans ((bind_ok hgenerate _).trans ?_)
  exact complete_eq graph h rfl (not_lowConfidence steps citations actions)

end AfterExecute

/-! ## The outcome of a run -/

section Run

variable {P : Platform} {hub hub' : ToolHub (World P.shortTurns υ)} {request : UnifiedRequest} {response : UnifiedResponse}

/-- A response is made of what the services keep, with the skills as the tools have
left them on the disk. -/
structure Responds (P : Platform) (hub : ToolHub (World P.shortTurns υ)) (disk : Disk Json) (request : UnifiedRequest)
    (skills : List SkillContextItem) (response : UnifiedResponse) : Prop where
  loaded : skillsOf P (hub.world.services.withDisk disk) = .ok skills
  citations : response.citations = RetrieverAgent.retrieve P.builtins.lower hub.world.services.knowledge request
  reviewed : (response.answer, response.confidence) = ReviewerAgent.review
    (ModelRouter.output P.builtins P.routing
      (P.promptFor hub.world.services hub.world.draws.readAt (capabilities hub) skills request response.citations)
      request.taskType.value request.policy.sensitivity.value).1
    response.citations response.actions.length
  traceId : response.traceId = hub.world.draws.traceId

/-- What every run does, however it ends. -/
structure Ran (hub hub' : ToolHub (World shortTurns υ)) : Prop where
  wired : Wired hub'
  draws : hub'.world.draws = hub.world.draws
  registry : hub'.registry = hub.registry
  cached : ∀ key, hub'.idempotencyCache.get? key = none → hub.idempotencyCache.get? key = none
  total : hub'.metrics.count "request.total" = hub.metrics.count "request.total" + 1
  low : hub'.metrics.count "response.low_confidence" = hub.metrics.count "response.low_confidence"

/-- The overrides of the planned tools can be merged, if tools are executed. -/
def Mergeable (B : Builtins) (traceId : String) (request : UnifiedRequest) : Prop :=
  request.policy.autoExecute = true → ∀ toolName ∈ toolNamesOf (PlannerAgent.plan B request),
    ∃ pairs, (overrideOf (executeContext request traceId) toolName).updatePairs = .ok pairs

theorem mergeable_of_ok {B : Builtins} {request : UnifiedRequest} {traceId : String} {actions : List Action}
    (h : execute B (PlannerAgent.plan B request) (executeContext request traceId) hub = .ok actions hub') :
    Mergeable B traceId request := by
  intro hauto
  rw [← callsOf_none_iff B]
  rw [execute_eq B _ _ _ hauto] at h
  cases hnone : (callsOf B (executeContext request traceId) (PlannerAgent.plan B request)).2 with
  | none => rfl
  | some exc =>
    rw [hnone] at h
    cases h

theorem not_mergeable_of_error {B : Builtins} {request : UnifiedRequest} {traceId : String} {exc : Exc}
    (h : execute B (PlannerAgent.plan B request) (executeContext request traceId) hub = .error exc hub') :
    ¬ Mergeable B traceId request := by
  intro hmergeable
  by_cases hauto : request.policy.autoExecute = true
  · have hnone := (callsOf_none_iff B (executeContext request traceId) _).2 (hmergeable hauto)
    rw [execute_eq B _ _ _ hauto, hnone] at h
    cases h
  · have hskipped : execute B (PlannerAgent.plan B request) (executeContext request traceId) hub = _ :=
      congrFun (if_neg hauto) hub
    cases h.symm.trans hskipped

/-- A run stops before its turn is remembered, raises after that, or returns. -/
inductive RunOutcome (P : Platform) (hub : ToolHub (World P.shortTurns υ)) (request : UnifiedRequest) :
    EStateM.Result Exc (ToolHub (World P.shortTurns υ)) UnifiedResponse → Prop
  | stopped {exc : Exc} {hub' : ToolHub (World P.shortTurns υ)} {disk : Disk Json} (ran : Ran hub hub')
      (apart : ServicesApart hub → hub.world.services.withDisk disk = hub.world.services)
      (cause : Mergeable P.builtins hub.world.draws.traceId request →
        ∃ exc, skillsOf P (hub.world.services.withDisk disk) = .error exc)
      (services : hub'.world.services = hub.world.services.withDisk disk) (events : completedEvents hub' = completedEvents hub) :
      RunOutcome P hub request (.error exc hub')
  | unrecorded {exc : Exc} {hub' : ToolHub (World P.shortTurns υ)} {disk : Disk Json} {answer : String} (ran : Ran hub hub')
      (apart : ServicesApart hub → hub.world.services.withDisk disk = hub.world.services)
      (raised : ∃ i, (hub.world.draws.fault i).raises = true)
      (services : hub'.world.services = (hub.world.services.withDisk disk).remember hub.world.draws request answer) :
      RunOutcome P hub request (.error exc hub')
  | returned {response : UnifiedResponse} {hub' : ToolHub (World P.shortTurns υ)} {disk : Disk Json}
      {skills : List SkillContextItem} (ran : Ran hub hub')
      (apart : ServicesApart hub → hub.world.services.withDisk disk = hub.world.services)
      (merged : Mergeable P.builtins hub.world.draws.traceId request) (responds : Responds P hub disk request skills response)
      (services : hub'.world.services =
        (hub.world.services.withDisk disk).remember hub.world.draws request response.answer)
      (events : completedEvents hub' = completedEvents hub ++
        [.completed response.traceId (request.tenantId.getD "") request.taskType response.confidence
          response.citations.length response.actions.length skills.length]) :
      RunOutcome P hub request (.ok response hub')

/-- However a run goes, it is counted. -/
theorem RunOutcome.ran {request : UnifiedRequest} {r : EStateM.Result Exc (ToolHub (World P.shortTurns υ)) UnifiedResponse}
    (h : RunOutcome P hub request r) : Ran hub (finalState r) := by
  cases h with
  | stopped ran => exact ran
  | unrecorded ran => exact ran
  | returned ran => exact ran

/-- Beside what its tools write to the disk, a run changes the services at most by
remembering an answer. -/
theorem RunOutcome.services {request : UnifiedRequest}
    {r : EStateM.Result Exc (ToolHub (World P.shortTurns υ)) UnifiedResponse} (h : RunOutcome P hub request r) :
    ∃ disk, (ServicesApart hub → hub.world.services.withDisk disk = hub.world.services) ∧
      ((finalState r).world.services = hub.world.services.withDisk disk ∨
        ∃ answer, (finalState r).world.services =
          (hub.world.services.withDisk disk).remember hub.world.draws request answer) := by
  cases h with
  | stopped _ apart _ services => exact ⟨_, apart, .inl services⟩
  | unrecorded _ apart _ services => exact ⟨_, apart, .inr ⟨_, services⟩⟩
  | returned _ apart _ _ services => exact ⟨_, apart, .inr ⟨_, services⟩⟩

/-- The request is counted. -/
def counted {ω : Type} (hub : ToolHub ω) : ToolHub ω := { hub with metrics := hub.metrics.inc "request.total" }

/-- A hub of which only the tools were used, once the request is counted. -/
theorem ran_of_toolsOnly (h : ToolsOnly (counted hub) hub') : Ran hub hub' := by
  refine ⟨h.wired, h.draws, h.registry, h.cached, ?_, ?_⟩
  · rw [h.counts _ (by decide)]
    exact MetricsRegistry.count_inc ..
  · rw [h.counts _ (by decide)]
    exact (MetricsRegistry.count_inc ..).trans (Nat.add_zero _)

/-- What is not part of the services may change once the run is counted. -/
theorem Ran.of_eq (h : Ran hub hub') {hub'' : ToolHub (World P.shortTurns υ)} (huuid4 : hub''.audit.uuid4 = hub'.audit.uuid4)
    (happend : hub''.audit.append = hub'.audit.append) (hregistry : hub''.registry = hub'.registry)
    (hcache : hub''.idempotencyCache = hub'.idempotencyCache) (hdraws : hub''.world.draws = hub'.world.draws)
    (hmetrics : hub''.metrics = hub'.metrics) : Ran hub hub'' := by
  refine ⟨h.wired.of_eq huuid4 happend hregistry, hdraws.trans h.draws,
    hregistry.trans h.registry, fun key hkey => h.cached key (hcache ▸ hkey), ?_, ?_⟩
  · rw [hmetrics, h.total]
  · rw [hmetrics, h.low]

/-- Planning and retrieving change nothing, so the tools are executed first. -/
theorem run_stages (hub : ToolHub (World P.shortTurns υ)) (graph : Bool) (request : UnifiedRequest) :
    (orchestrator P.builtins P.collaborators graph).run request hub =
      (execute P.builtins (PlannerAgent.plan P.builtins request) (executeContext request hub.world.draws.traceId) >>=
        fun actions => (orchestrator P.builtins P.collaborators graph).afterExecute request hub.world.draws.traceId
          (PlannerAgent.plan P.builtins request)
          (RetrieverAgent.retrieve P.builtins.lower hub.world.services.knowledge request) actions) (counted hub) := by
  rw [OrchestratorService.run_eq]
  rfl

/-- The event is recorded, or it is not and the run raises. -/
theorem recorded_outcome (hran : Ran hub hub') {disk : Disk Json}
    (hservices : hub'.world.services = hub.world.services.withDisk disk)
    (hapart : ServicesApart hub → hub.world.services.withDisk disk = hub.world.services)
    (hevents : completedEvents hub' = completedEvents hub) {skills : List SkillContextItem} {state : OrchestrationState}
    (hrequest : state.request = request) (hmerged : Mergeable P.builtins hub.world.draws.traceId request)
    (hresponds : Responds P hub disk request skills (responseOf state)) :
    RunOutcome P hub request ((record (completedPayload state skills) >>= fun _ => pure (responseOf state))
      (remembering hub' state)) := by
  have hremembering : Ran hub (remembering hub' state) := hran.of_eq rfl rfl rfl rfl rfl rfl
  have hremembered : (remembering hub' state).world.services =
      (hub.world.services.withDisk disk).remember hub.world.draws request state.answer := by
    rw [← hservices, ← hran.draws, ← hrequest]
    rfl
  have hdraw : (remembering hub' state).world.fault = hub.world.draws.fault hub'.world.recorded :=
    congrArg (fun draws : Draws => draws.fault hub'.world.recorded) hran.draws
  have hrecord := record_wired hremembering.wired (completedPayload state skills)
  cases hfault : (remembering hub' state).world.fault with
  | none =>
    rw [hfault] at hrecord
    rw [bind_ok hrecord]
    refine .returned (hremembering.of_eq rfl rfl rfl rfl rfl rfl) hapart hmerged hresponds hremembered ?_
    have hlog : completedEvents (remembering hub' state) = completedEvents hub := hevents
    rw [← hlog, ← hrequest]
    simp [completedEvents, logged, completedPayload, AuditPayload.params, responseOf]
  | before exc =>
    rw [hfault] at hrecord
    rw [bind_error hrecord]
    exact .unrecorded (hremembering.of_eq rfl rfl rfl rfl rfl rfl) hapart ⟨_, by rw [← hdraw, hfault]; rfl⟩ hremembered
  | after exc =>
    rw [hfault] at hrecord
    rw [bind_error hrecord]
    exact .unrecorded (hremembering.of_eq rfl rfl rfl rfl rfl rfl) hapart ⟨_, by rw [← hdraw, hfault]; rfl⟩ hremembered

theorem run_outcome (hw : Wired hub) (graph : Bool) (request : UnifiedRequest) :
    RunOutcome P hub request ((orchestrator P.builtins P.collaborators graph).run request hub) := by
  let steps := PlannerAgent.plan P.builtins request
  let traceId := hub.world.draws.traceId
  let citations := RetrieverAgent.retrieve P.builtins.lower hub.world.services.knowledge request
  let hub₁ := counted hub
  have hw₁ : Wired hub₁ := hw.of_eq rfl rfl rfl
  rw [run_stages]
  have hexecute := (execute_untouched P.builtins steps (executeContext request traceId)).finalState hub₁ hw₁
  cases hactions : execute P.builtins steps (executeContext request traceId) hub₁ with
  | error exc hub₂ =>
    rw [hactions, finalState_error] at hexecute
    rw [bind_error hactions]
    obtain ⟨disk, hservices⟩ := hexecute.services
    have hcause := not_mergeable_of_error hactions
    have hapart : ServicesApart hub → hub.world.services.withDisk disk = hub.world.services :=
      fun h => hservices.symm.trans (hexecute.apart h)
    exact .stopped (ran_of_toolsOnly hexecute) hapart (fun hmergeable => absurd hmergeable hcause) hservices hexecute.completed
  | ok actions hub₂ =>
    rw [hactions, finalState_ok] at hexecute
    have htrace : hub₂.world.draws.traceId = hub.world.draws.traceId := congrArg Draws.traceId hexecute.draws
    rw [bind_ok hactions, ← htrace]
    have hran := ran_of_toolsOnly hexecute
    obtain ⟨disk, hservices⟩ := hexecute.services
    have hapart : ServicesApart hub → hub.world.services.withDisk disk = hub.world.services :=
      fun h => hservices.symm.trans (hexecute.apart h)
    cases hskills : skillsOf P hub₂.world.services with
    | error exc =>
      rw [afterExecute_error steps citations actions graph hskills]
      exact .stopped hran hapart (fun _ => ⟨exc, hservices ▸ hskills⟩) hservices hexecute.completed
    | ok skills =>
      rw [afterExecute_eq steps citations actions graph hskills]
      refine recorded_outcome hran hservices hapart hexecute.completed rfl (mergeable_of_ok hactions) ⟨?_, rfl, ?_, ?_⟩
      · exact (congrArg (skillsOf P) hservices).symm.trans hskills
      · have hcapabilities : capabilities hub₂ = capabilities hub := by
          rw [capabilities, hexecute.registry]
          rfl
        simp only [responseOf, finished, modelOutput, hservices, hexecute.draws, hcapabilities]
        rfl
      · exact congrArg Draws.traceId hexecute.draws

theorem callsOf_untooled (B : Builtins) (c : ExecuteContext) {steps : List Step} (h : toolNamesOf steps = []) :
    callsOf B c steps = ([], none) := by
  induction steps with
  | nil => rfl
  | cons step steps ih =>
    cases step with
    | validatePermissions => exact ih h
    | respond => exact ih h
    | tool => cases h

/-- A question, for which no tool is planned, is answered if the skills load and the
event can be written. -/
theorem run_untooled (hw : Wired hub) (graph : Bool) {skills : List SkillContextItem}
    (hplan : toolNamesOf (PlannerAgent.plan P.builtins request) = []) (hskills : skillsOf P hub.world.services = .ok skills)
    (hfault : hub.world.fault = .none) :
    ∃ response hub', (orchestrator P.builtins P.collaborators graph).run request hub = .ok response hub' := by
  let hub₁ := counted hub
  let steps := PlannerAgent.plan P.builtins request
  let citations := RetrieverAgent.retrieve P.builtins.lower hub.world.services.knowledge request
  obtain ⟨actions, hactions⟩ : ∃ actions,
      execute P.builtins steps (executeContext request hub.world.draws.traceId) hub₁ = .ok actions hub₁ := by
    unfold execute
    split
    · rw [rounds_eq, callsOf_untooled _ _ hplan]
      exact ⟨_, rfl⟩
    · exact ⟨_, rfl⟩
  have hwired : Wired (remembering hub₁ (finished hub₁ request steps citations actions skills)) :=
    hw.of_eq rfl rfl rfl
  have hrecord := record_wired hwired (completedPayload (finished hub₁ request steps citations actions skills) skills)
  rw [show (remembering hub₁ _).world.fault = _ from hfault] at hrecord
  have hloaded : skillsOf P hub₁.world.services = .ok skills := hskills
  exact ⟨_, _, (run_stages hub graph request).trans ((bind_ok hactions _).trans
    ((afterExecute_eq steps citations actions graph hloaded).trans (bind_ok hrecord _)))⟩

end Run

end Ochestrate
