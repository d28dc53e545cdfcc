import Ochestrate.Agents.Executor
import Ochestrate.Skills.Context

/-!
# The orchestrator

`app/orchestration/service.py`. The service is generic in the state `σ` that
its collaborators share: each of them is a program over `σ` that may change it,
return any value or raise. With a graph the four stages are the nodes of a
compiled state graph, run in the order of its edges, each given the state that
the one before returned; without one the same stages run in sequence.
`runGraph_eq` says that the two are the same program.
-/

namespace Ochestrate

structure PromptAssemblyInput where
  systemPolicy : String
  task : String
  evidence : String
  shortMemory : String
  longMemory : String
  tools : List Capability
  skills : List SkillContextItem
  maxSkillItems : Int
  skillContextMode : SkillContextMode := .auto
  deriving DecidableEq

/-- The arguments of `ContextManager.build_context`. -/
structure ContextLayers where
  systemPolicy : String
  taskContext : String
  retrievalEvidence : String
  shortMemory : String
  longMemory : String
  deriving DecidableEq

/-- The collaborators that neither plan nor execute, over their state `σ`. -/
structure Collaborators (σ : Type) where
  retrieve : UnifiedRequest → EStateM Exc σ (List Citation)
  /-- `reviewer.review(answer, citations, actions_count)` -/
  review : String → List Citation → Nat → EStateM Exc σ (String × Rat)
  /-- `model_router.generate(prompt, task_type, sensitivity)` -/
  generate : String → TaskType → Sensitivity → EStateM Exc σ (String × Bool)
  /-- `memory.read_short(tenant_id, user_id, session_id)` -/
  readShort : String → String → String → EStateM Exc σ (List String)
  /-- `memory.read_long(tenant_id, user_id, query)` -/
  readLong : String → String → String → EStateM Exc σ (List String)
  /-- `memory.write_short(tenant_id, user_id, session_id, content)` -/
  writeShort : String → String → String → String → EStateM Exc σ MemoryUpdate
  /-- `memory.write_long(tenant_id, user_id, content, tags)` -/
  writeLong : String → String → String → List String → EStateM Exc σ MemoryUpdate
  assemble : PromptAssemblyInput → EStateM Exc σ String
  buildContext : ContextLayers → EStateM Exc σ String
  loadSkills : EStateM Exc σ (List SkillContextItem)
  newTraceId : EStateM Exc σ String
  maxSkillItems : Int := 100

/-- The service with all its collaborators; `graph` says whether the graph
library is there. -/
structure OrchestratorService (σ : Type) extends Collaborators σ where
  plan : UnifiedRequest → EStateM Exc σ (List Step)
  execute : List Step → ExecuteContext → EStateM Exc σ (List Action)
  listCapabilities : EStateM Exc σ (List Capability)
  inc : String → EStateM Exc σ Unit
  record : AuditPayload → EStateM Exc σ String
  graph : Bool

/-- The dictionary that the stages pass on. -/
structure OrchestrationState where
  request : UnifiedRequest
  traceId : String
  plannerSteps : List Step := []
  citations : List Citation := []
  actions : List Action := []
  answer : String := ""
  confidence : Rat := 0
  fallbackTriggered : Bool := false

/-- `"\n".join(lines)`. -/
def joinLines (lines : List String) : String := "\n".intercalate lines

/-- `text[:n]`. -/
def firstChars (text : String) (n : Nat) : String := String.ofList (text.toList.take n)

/-- The float `0.4`. -/
def lowConfidence : Rat := mkRat 3602879701896397 9007199254740992

/-- The identity and policy of a request as the executor gets them. -/
def executeContext (request : UnifiedRequest) (traceId : String) : ExecuteContext where
  userRole := (request.metadata.get? "role").getD (.str "employee")
  traceId
  tenantId := request.tenantId.getD ""
  userId := request.userId.getD ""
  policy := request.policy
  toolOverrides := some request.toolOverrides

namespace OrchestratorService

variable {σ : Type} (O : OrchestratorService σ)

/-- `_compose_prompt`. -/
def composePrompt (request : UnifiedRequest) (citations : List Citation) : EStateM Exc σ String := do
  let tenantId := request.tenantId.getD ""
  let userId := request.userId.getD ""
  let shortCtx := joinLines (← O.readShort tenantId userId request.sessionId)
  let longCtx := joinLines (← O.readLong tenantId userId request.input)
  let evidence := joinLines (citations.map (·.snippet))
  let tools ← O.listCapabilities
  let skills ← O.loadSkills
  let prompt ← O.assemble {
    systemPolicy := "Enterprise assistant with high-accuracy and citation requirements."
    task := request.input, evidence, shortMemory := shortCtx, longMemory := longCtx
    tools, skills, maxSkillItems := O.maxSkillItems, skillContextMode := request.skillContextMode }
  O.buildContext {
    systemPolicy := "Use the assembled prompt content as the task context."
    taskContext := prompt, retrievalEvidence := evidence, shortMemory := shortCtx, longMemory := longCtx }

/-! ## The four nodes of the graph -/

def plannerNode (state : OrchestrationState) : EStateM Exc σ OrchestrationState := do
  let plannerSteps ← O.plan state.request
  return { state with plannerSteps }

def retrieverNode (state : OrchestrationState) : EStateM Exc σ OrchestrationState := do
  let citations ← O.retrieve state.request
  return { state with citations }

def executorNode (state : OrchestrationState) : EStateM Exc σ OrchestrationState := do
  let actions ← O.execute state.plannerSteps (executeContext state.request state.traceId)
  return { state with actions }

def reviewerNode (state : OrchestrationState) : EStateM Exc σ OrchestrationState := do
  let prompt ← O.composePrompt state.request state.citations
  let (answer, fallback) ← O.generate prompt state.request.taskType state.request.policy.sensitivity
  let (answer, confidence) ← O.review answer state.citations state.actions.length
  return { state with answer, confidence, fallbackTriggered := fallback }

/-- `_graph.invoke`: the nodes in the order of the edges. -/
def runGraph (state : OrchestrationState) : EStateM Exc σ OrchestrationState := do
  let state ← O.plannerNode state
  let state ← O.retrieverNode state
  let state ← O.executorNode state
  O.reviewerNode state

/-- `_run_without_graph`. -/
def runWithoutGraph (state : OrchestrationState) : EStateM Exc σ OrchestrationState := do
  let request := state.request
  let plannerSteps ← O.plan request
  let citations ← O.retrieve request
  let actions ← O.execute plannerSteps (executeContext request state.traceId)
  let prompt ← O.composePrompt request citations
  let (answer, fallback) ← O.generate prompt request.taskType request.policy.sensitivity
  let (answer, confidence) ← O.review answer citations actions.length
  return { state with plannerSteps, citations, actions, answer, confidence, fallbackTriggered := fallback }

/-- What `run` does after the stages. -/
def complete (state : OrchestrationState) : EStateM Exc σ UnifiedResponse := do
  let request := state.request
  let tenantId := request.tenantId.getD ""
  let userId := request.userId.getD ""
  let shortUpdate ← O.writeShort tenantId userId request.sessionId
    ("Q:" ++ request.input ++ "\nA:" ++ firstChars state.answer 300)
  let longUpdate ← O.writeLong tenantId userId ("Preferred context from trace " ++ state.traceId) ["auto-summary"]
  let skills ← O.loadSkills
  let _ ← O.record (.completed state.traceId tenantId request.taskType state.confidence state.citations.length
    state.actions.length skills.length)
  if state.confidence < lowConfidence then O.inc "response.low_confidence"
  return {
    answer := state.answer, citations := state.citations, actions := state.actions
    confidence := state.confidence, traceId := state.traceId, memoryUpdates := [shortUpdate, longUpdate]
    fallbackTriggered := state.fallbackTriggered }

def run (request : UnifiedRequest) : EStateM Exc σ UnifiedResponse := do
  let traceId ← O.newTraceId
  O.inc "request.total"
  let state ← if O.graph then O.runGraph { request, traceId } else O.runWithoutGraph { request, traceId }
  O.complete state

/-- The compiled graph runs the same collaborators with the same arguments. -/
theorem runGraph_eq (state : OrchestrationState) : O.runGraph state = O.runWithoutGraph state := by
  simp only [runGraph, plannerNode, retrieverNode, executorNode, reviewerNode, runWithoutGraph, bind_assoc,
    pure_bind]

/-- The run once the tools have been called. -/
def afterExecute (request : UnifiedRequest) (traceId : String) (plannerSteps : List Step)
    (citations : List Citation) (actions : List Action) : EStateM Exc σ UnifiedResponse := do
  let prompt ← O.composePrompt request citations
  let (answer, fallback) ← O.generate prompt request.taskType request.policy.sensitivity
  let (answer, confidence) ← O.review answer citations actions.length
  O.complete
    { request, traceId, plannerSteps, citations, actions, answer, confidence, fallbackTriggered := fallback }

/-- A run is its calls in sequence, whether or not there is a graph. -/
theorem run_eq (request : UnifiedRequest) :
    O.run request = (do
      let traceId ← O.newTraceId
      O.inc "request.total"
      let plannerSteps ← O.plan request
      let citations ← O.retrieve request
      let actions ← O.execute plannerSteps (executeContext request traceId)
      O.afterExecute request traceId plannerSteps citations actions) := by
  simp only [run, runGraph_eq, ite_self, runWithoutGraph, afterExecute, bind_assoc, pure_bind]

end OrchestratorService

end Ochestrate
