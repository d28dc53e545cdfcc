import Ochestrate.Api.RequestContext
import Ochestrate.Orchestration.Service

/-!
# The synchronous run

`app/api/v1/agent.py` and the part of `app/core/dependencies.py` that puts the
orchestrator together: planner and executor are the source's own and share one
tool hub, and the other collaborators act on the world outside the hub.
`Idle.run` is the rule for what a run does to the hub: what the executor does,
among stages that are along another relation. By it `run_dispatches` says that
a run hands to tools and to the audit log only what the executor hands over for
the plan.
-/

namespace Ochestrate

variable {ω : Type}

/-- Collaborators of the world outside the hub. -/
def Collaborators.overHub (K : Collaborators ω) : Collaborators (ToolHub ω) where
  retrieve request := ToolHub.outside (K.retrieve request)
  review answer citations actionsCount := ToolHub.outside (K.review answer citations actionsCount)
  generate prompt taskType sensitivity := ToolHub.outside (K.generate prompt taskType sensitivity)
  readShort tenantId userId sessionId := ToolHub.outside (K.readShort tenantId userId sessionId)
  readLong tenantId userId query := ToolHub.outside (K.readLong tenantId userId query)
  writeShort tenantId userId sessionId content :=
    ToolHub.outside (K.writeShort tenantId userId sessionId content)
  writeLong tenantId userId content tags := ToolHub.outside (K.writeLong tenantId userId content tags)
  assemble data := ToolHub.outside (K.assemble data)
  buildContext layers := ToolHub.outside (K.buildContext layers)
  loadSkills := ToolHub.outside K.loadSkills
  newTraceId := ToolHub.outside K.newTraceId
  maxSkillItems := K.maxSkillItems

/-- The container's orchestrator. -/
def orchestrator (B : Builtins) (K : Collaborators ω) (graph : Bool) : OrchestratorService (ToolHub ω) where
  toCollaborators := K.overHub
  plan request := return PlannerAgent.plan B request
  execute := ExecutorAgent.execute B
  listCapabilities := ToolHub.listCapabilities
  inc := ToolHub.inc
  record := ToolHub.record
  graph

/-- `run_agent`. -/
def runAgent (B : Builtins) (K : Collaborators ω) (graph : Bool) (request : UnifiedRequest)
    (auth : AuthContext) : EStateM Exc (ToolHub ω) UnifiedResponse :=
  (orchestrator B K graph).run (bindUnifiedRequestAuth request auth)

/-! ## What a run does to the hub -/

open ToolHub

/-- What the stages that neither plan nor execute do to the hub is along `R`. -/
structure Idle (R : ToolHub ω → ToolHub ω → Prop) : Prop where
  refl : ∀ hub, R hub hub
  trans : ∀ ⦃a b c⦄, R a b → R b c → R a c
  outside : ∀ {α : Type} (x : EStateM Exc ω α), Along R (ToolHub.outside x) fun _ => True
  inc : ∀ metricName, Along R (ToolHub.inc metricName) fun _ => True
  record : ∀ payload : AuditPayload, payload.params = none → Along R (ToolHub.record payload) fun _ => True

namespace Idle

variable {R : ToolHub ω → ToolHub ω → Prop} {B : Builtins} {K : Collaborators ω} {graph : Bool}

theorem listCapabilities (hi : Idle R) :
    Along R (listCapabilities : EStateM Exc (ToolHub ω) (List Capability)) (fun _ => True) :=
  Along.bind hi.trans (Along.get hi.refl) fun _ _ => Along.pure hi.refl trivial

theorem composePrompt (hi : Idle R) (request : UnifiedRequest) (citations : List Citation) :
    Along R ((orchestrator B K graph).composePrompt request citations) (fun _ => True) := by
  refine Along.bind hi.trans (hi.outside _) fun _ _ => ?_
  refine Along.bind hi.trans (hi.outside _) fun _ _ => ?_
  refine Along.bind hi.trans hi.listCapabilities fun _ _ => ?_
  refine Along.bind hi.trans (hi.outside _) fun _ _ => ?_
  exact Along.bind hi.trans (hi.outside _) fun _ _ => hi.outside _

theorem complete (hi : Idle R) (state : OrchestrationState) :
    Along R ((orchestrator B K graph).complete state) (fun _ => True) := by
  refine Along.bind hi.trans (hi.outside _) fun _ _ => ?_
  refine Along.bind hi.trans (hi.outside _) fun _ _ => ?_
  refine Along.bind hi.trans (hi.outside _) fun _ _ => ?_
  refine Along.bind hi.trans (hi.record _ rfl) fun _ _ => ?_
  dsimp only
  split
  · exact Along.bind hi.trans (hi.inc _) fun _ _ => Along.pure hi.refl trivial
  · exact Along.pure hi.refl trivial

theorem afterExecute (hi : Idle R) (request : UnifiedRequest) (traceId : String) (plannerSteps : List Step)
    (citations : List Citation) (actions : List Action) :
    Along R ((orchestrator B K graph).afterExecute request traceId plannerSteps citations actions)
      (fun _ => True) := by
  refine Along.bind hi.trans (hi.composePrompt request citations) fun _ _ => ?_
  refine Along.bind hi.trans (hi.outside _) fun _ _ => ?_
  exact Along.bind hi.trans (hi.outside _) fun _ _ => hi.complete _

/-- A run does to the hub what the executor does, among idle stages. -/
theorem run (hi : Idle R) {R' : ToolHub ω → ToolHub ω → Prop} (hsub : ∀ ⦃a b⦄, R a b → R' a b)
    (hbefore : ∀ ⦃a b c⦄, R a b → R' b c → R' a c) (hafter : ∀ ⦃a b c⦄, R' a b → R b c → R' a c)
    {request : UnifiedRequest}
    (hexec : ∀ traceId, Along R' (ExecutorAgent.execute B (PlannerAgent.plan B request)
      (executeContext request traceId)) (fun _ => True)) :
    Along R' ((orchestrator B K graph).run request) (fun _ => True) := by
  rw [OrchestratorService.run_eq]
  refine Along.seq hbefore hsub (hi.outside _) fun traceId _ => ?_
  refine Along.seq hbefore hsub (hi.inc _) fun _ _ => ?_
  have hplan : Along R ((orchestrator B K graph).plan request) (fun steps => steps = PlannerAgent.plan B request) :=
    Along.pure hi.refl rfl
  refine Along.seq hbefore hsub hplan fun _ hsteps => ?_
  subst hsteps
  refine Along.seq hbefore hsub (hi.outside _) fun _ _ => ?_
  exact Along.seq hafter (fun _ _ h => h) (hexec traceId) fun _ _ => hi.afterExecute _ _ _ _ _

end Idle

/-! ## What a run hands out -/

variable {P : Params → Prop} {B : Builtins} {K : Collaborators ω} {graph : Bool}

theorem idle_dispatches (P : Params → Prop) : Idle (Dispatches P : ToolHub ω → ToolHub ω → Prop) where
  refl := .refl
  trans _ _ _ := .trans
  outside := outside_dispatches
  inc := inc_dispatches
  record payload h := record_dispatches (by rw [h]; rintro _ ⟨⟩)

/-- A run hands out no dictionary but those the executor hands over. -/
theorem run_dispatches {request : UnifiedRequest}
    (h : request.policy.autoExecute = true → ∀ traceId, ∀ params ∈ ExecutorAgent.handed B
      (executeContext request traceId) (PlannerAgent.plan B request), P params) :
    Along (Dispatches P) ((orchestrator B K graph).run request) (fun _ => True) :=
  (idle_dispatches P).run (fun _ _ hr => hr) (idle_dispatches P).trans (idle_dispatches P).trans fun traceId =>
    ExecutorAgent.execute_dispatches B _ _ fun ha => h ha traceId

end Ochestrate
