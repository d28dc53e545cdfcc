import Ochestrate.Framework.StateGraph
import Ochestrate.Orchestration.Service

/-!
# The compiled graph and the fallback

`_build_graph` and `_run_without_graph` of `app/orchestration/service.py` over
the dictionary that they share: a node reads an absent `planner_steps`,
`citations` or `actions` as empty, the fallback keeps its results in local
variables and writes them to the dictionary at its end. The runtime of the
graph is a parameter `invoke`, of which `RunsInEdgeOrder` is assumed.

`logged` is the service with collaborators that write down their calls.
`invoke_buildGraph` says that both make the same calls and end in the same way,
whatever the collaborators do; `invoke_ofState` that the graph runs the stages
of `runGraph`.
-/

namespace Ochestrate

/-- The dictionary of the stages; `none` where it has no such key. -/
structure StateDict where
  request : Option UnifiedRequest := none
  traceId : Option String := none
  plannerSteps : Option (List Step) := none
  citations : Option (List Citation) := none
  actions : Option (List Action) := none
  answer : Option String := none
  confidence : Option Rat := none
  fallbackTriggered : Option Bool := none

/-- The dictionary with all its keys, as `run` makes it. -/
def StateDict.ofState (state : OrchestrationState) : StateDict where
  request := some state.request
  traceId := some state.traceId
  plannerSteps := some state.plannerSteps
  citations := some state.citations
  actions := some state.actions
  answer := some state.answer
  confidence := some state.confidence
  fallbackTriggered := some state.fallbackTriggered

/-- `state[key]`. -/
def StateDict.item {σ α : Type} (key : String) : Option α → EStateM Exc σ α
  | some value => pure value
  | none => throw ⟨.other, "'" ++ key ++ "'"⟩

/-- A call of a collaborator with its arguments. -/
inductive Call
  | plan (request : UnifiedRequest)
  | retrieve (request : UnifiedRequest)
  | execute (steps : List Step) (context : ExecuteContext)
  | readShort (tenantId userId sessionId : String)
  | readLong (tenantId userId query : String)
  | listCapabilities
  | loadSkills
  | assemble (input : PromptAssemblyInput)
  | buildContext (layers : ContextLayers)
  | generate (prompt : String) (taskType : TaskType) (sensitivity : Sensitivity)
  | review (answer : String) (citations : List Citation) (actionsCount : Nat)
  | writeShort (tenantId userId sessionId content : String)
  | writeLong (tenantId userId content : String) (tags : List String)
  | newTraceId
  | inc (name : String)
  | record (payload : AuditPayload)

/-- Writes a call down and makes it. -/
def logging {σ α : Type} (call : Call) (x : EStateM Exc σ α) : EStateM Exc (σ × List Call) α := do
  modify fun s => (s.1, s.2 ++ [call])
  zoomed Prod.fst (fun s t => (t, s.2)) x

/-- `y` does what `x` does and writes some calls down. -/
def Logs {σ α : Type} (x : EStateM Exc σ α) (y : EStateM Exc (σ × List Call) α) : Prop :=
  ∀ s calls, ∃ made, y (s, calls) =
    match x s with
    | .ok a s' => .ok a (s', calls ++ made)
    | .error e s' => .error e (s', calls ++ made)

namespace Logs

variable {σ α β : Type} {x : EStateM Exc σ α} {y : EStateM Exc (σ × List Call) α}

theorem logging (call : Call) (x : EStateM Exc σ α) : Logs x (logging call x) := by
  intro s calls
  refine ⟨[call], ?_⟩
  unfold Ochestrate.logging
  rw [modify_bind]
  unfold zoomed
  cases x s <;> rfl

theorem pure (a : α) : Logs (pure a : EStateM Exc σ α) (pure a) :=
  fun _ calls => ⟨[], by rw [List.append_nil]; rfl⟩

theorem throw (e : Exc) : Logs (throw e : EStateM Exc σ α) (throw e) :=
  fun _ calls => ⟨[], by rw [List.append_nil]; rfl⟩

theorem bind (h : Logs x y) {f : α → EStateM Exc σ β} {g : α → EStateM Exc (σ × List Call) β}
    (hf : ∀ a, Logs (f a) (g a)) : Logs (x >>= f) (y >>= g) := by
  intro s calls
  obtain ⟨made, hy⟩ := h s calls
  cases hx : x s with
  | error e s' =>
    rw [hx] at hy
    exact ⟨made, by rw [bind_error hx, bind_error hy]⟩
  | ok a s' =>
    rw [hx] at hy
    obtain ⟨made', hg⟩ := hf a s' (calls ++ made)
    exact ⟨made ++ made', by rw [bind_ok hx, bind_ok hy, hg, List.append_assoc]⟩

theorem item (key : String) (value : Option α) :
    Logs (StateDict.item key value : EStateM Exc σ α) (StateDict.item key value) := by
  cases value with
  | none => exact throw _
  | some value => exact pure value

end Logs

namespace OrchestratorService

variable {σ : Type}

/-- The service whose collaborators write down their calls. -/
def logged (O : OrchestratorService σ) : OrchestratorService (σ × List Call) where
  retrieve request := logging (.retrieve request) (O.retrieve request)
  review answer citations n := logging (.review answer citations n) (O.review answer citations n)
  generate prompt taskType sensitivity :=
    logging (.generate prompt taskType sensitivity) (O.generate prompt taskType sensitivity)
  readShort tenantId userId sessionId :=
    logging (.readShort tenantId userId sessionId) (O.readShort tenantId userId sessionId)
  readLong tenantId userId query := logging (.readLong tenantId userId query) (O.readLong tenantId userId query)
  writeShort tenantId userId sessionId content :=
    logging (.writeShort tenantId userId sessionId content) (O.writeShort tenantId userId sessionId content)
  writeLong tenantId userId content tags :=
    logging (.writeLong tenantId userId content tags) (O.writeLong tenantId userId content tags)
  assemble input := logging (.assemble input) (O.assemble input)
  buildContext layers := logging (.buildContext layers) (O.buildContext layers)
  loadSkills := logging .loadSkills O.loadSkills
  newTraceId := logging .newTraceId O.newTraceId
  maxSkillItems := O.maxSkillItems
  plan request := logging (.plan request) (O.plan request)
  execute steps context := logging (.execute steps context) (O.execute steps context)
  listCapabilities := logging .listCapabilities O.listCapabilities
  inc name := logging (.inc name) (O.inc name)
  record payload := logging (.record payload) (O.record payload)
  graph := O.graph

variable (O : OrchestratorService σ)

/-! ## The nodes of the graph over the dictionary -/

def plannerNodeOn (state : StateDict) : EStateM Exc σ StateDict := do
  let request ← StateDict.item "request" state.request
  let plannerSteps ← O.plan request
  return { state with plannerSteps := some plannerSteps }

def retrieverNodeOn (state : StateDict) : EStateM Exc σ StateDict := do
  let request ← StateDict.item "request" state.request
  let citations ← O.retrieve request
  return { state with citations := some citations }

def executorNodeOn (state : StateDict) : EStateM Exc σ StateDict := do
  let request ← StateDict.item "request" state.request
  let traceId ← StateDict.item "trace_id" state.traceId
  let actions ← O.execute (state.plannerSteps.getD []) (executeContext request traceId)
  return { state with actions := some actions }

def reviewerNodeOn (state : StateDict) : EStateM Exc σ StateDict := do
  let request ← StateDict.item "request" state.request
  let prompt ← O.composePrompt request (state.citations.getD [])
  let (answer, fallback) ← O.generate prompt request.taskType request.policy.sensitivity
  let (reviewedAnswer, confidence) ← O.review answer (state.citations.getD []) (state.actions.getD []).length
  return { state with
    answer := some reviewedAnswer, confidence := some confidence, fallbackTriggered := some fallback }

/-- `_build_graph`, with the runtime's `END`. -/
def buildGraph : StateGraph (EStateM Exc σ) StateDict :=
  ({ endSymbol := "__end__" } : StateGraph (EStateM Exc σ) StateDict)
    |>.addNode "planner" O.plannerNodeOn
    |>.addNode "retriever" O.retrieverNodeOn
    |>.addNode "executor" O.executorNodeOn
    |>.addNode "reviewer" O.reviewerNodeOn
    |>.setEntryPoint "planner"
    |>.addEdge "planner" "retriever"
    |>.addEdge "retriever" "executor"
    |>.addEdge "executor" "reviewer"
    |>.addEdge "reviewer" "__end__"

/-- `_run_without_graph`. -/
def runWithoutGraphOn (state : StateDict) : EStateM Exc σ StateDict := do
  let request ← StateDict.item "request" state.request
  let plannerSteps ← O.plan request
  let citations ← O.retrieve request
  let traceId ← StateDict.item "trace_id" state.traceId
  let actions ← O.execute plannerSteps (executeContext request traceId)
  let prompt ← O.composePrompt request citations
  let (answer, fallback) ← O.generate prompt request.taskType request.policy.sensitivity
  let (reviewedAnswer, confidence) ← O.review answer citations actions.length
  return { state with
    plannerSteps := some plannerSteps, citations := some citations, actions := some actions
    answer := some reviewedAnswer, confidence := some confidence, fallbackTriggered := some fallback }

/-! ## Both ways of running the stages -/

/-- The steps of a run that LangGraph allows by default. -/
def recursionLimit : Nat := 25

/-- The four nodes lie on one path. -/
theorem buildGraph_chain :
    O.buildGraph.Chain "planner" [O.plannerNodeOn, O.retrieverNodeOn, O.executorNodeOn, O.reviewerNodeOn] := by
  refine .step (show "planner" ≠ "__end__" by decide) rfl
    (show O.buildGraph.successors "planner" = ["retriever"] from rfl) ?_
  refine .step (show "retriever" ≠ "__end__" by decide) rfl
    (show O.buildGraph.successors "retriever" = ["executor"] from rfl) ?_
  refine .step (show "executor" ≠ "__end__" by decide) rfl
    (show O.buildGraph.successors "executor" = ["reviewer"] from rfl) ?_
  exact .step (show "reviewer" ≠ "__end__" by decide) rfl rfl .stop

theorem item_some {α : Type} (key : String) (value : α) :
    (StateDict.item key (some value) : EStateM Exc σ α) = pure value := rfl

/-- The nodes in the order of the edges do what the fallback does. -/
theorem runNodes_eq (state : StateDict) :
    StateGraph.runNodes [O.plannerNodeOn, O.retrieverNodeOn, O.executorNodeOn, O.reviewerNodeOn] state =
      O.runWithoutGraphOn state := by
  obtain ⟨request, traceId⟩ := state
  cases request with
  | none => rfl
  | some request =>
    simp only [StateGraph.runNodes, List.foldlM_cons, List.foldlM_nil, plannerNodeOn, retrieverNodeOn,
      executorNodeOn, reviewerNodeOn, runWithoutGraphOn, item_some, Option.getD_some, bind_assoc, pure_bind, bind_pure]

/-- With all its keys, the dictionary goes through the stages as the state of
`runWithoutGraph` does. -/
theorem runWithoutGraphOn_ofState (state : OrchestrationState) :
    O.runWithoutGraphOn (.ofState state) = StateDict.ofState <$> O.runWithoutGraph state := by
  simp only [runWithoutGraphOn, runWithoutGraph, StateDict.ofState, item_some, map_bind, map_pure, pure_bind]

variable {invoke : StateGraph (EStateM Exc σ) StateDict → StateDict → EStateM Exc σ StateDict}

/-- The graph in a runtime that runs it in the order of its edges. -/
theorem invoke_eq (hinvoke : StateGraph.RunsInEdgeOrder recursionLimit invoke) (state : StateDict) :
    invoke O.buildGraph state = O.runWithoutGraphOn state := by
  rw [hinvoke O.buildGraph "planner" _ rfl O.buildGraph_chain (show 4 ≤ recursionLimit by decide) state, runNodes_eq]

/-- The compiled graph runs the stages of `runGraph`. -/
theorem invoke_ofState (hinvoke : StateGraph.RunsInEdgeOrder recursionLimit invoke)
    (state : OrchestrationState) : invoke O.buildGraph (.ofState state) = StateDict.ofState <$> O.runGraph state := by
  rw [O.invoke_eq hinvoke, runWithoutGraphOn_ofState, runGraph_eq]

theorem composePrompt_logs (request : UnifiedRequest) (citations : List Citation) :
    Logs (O.composePrompt request citations) (O.logged.composePrompt request citations) := by
  unfold composePrompt
  refine .bind (.logging _ _) fun short => .bind (.logging _ _) fun long => ?_
  refine .bind (.logging _ _) fun tools => .bind (.logging _ _) fun skills => ?_
  exact .bind (.logging _ _) fun prompt => .logging _ _

/-- What the logged service writes down are the calls of the service itself. -/
theorem runWithoutGraphOn_logs (state : StateDict) :
    Logs (O.runWithoutGraphOn state) (O.logged.runWithoutGraphOn state) := by
  unfold runWithoutGraphOn
  refine .bind (.item _ _) fun request => .bind (.logging _ _) fun plannerSteps => ?_
  refine .bind (.logging _ _) fun citations => .bind (.item _ _) fun traceId => ?_
  refine .bind (.logging _ _) fun actions => .bind (O.composePrompt_logs request citations) fun prompt => ?_
  exact .bind (.logging _ _) fun generated => .bind (.logging _ _) fun reviewed => .pure _

/-- The compiled graph and the fallback make the same calls with the same
arguments in the same order, and return the same dictionary or raise the same
exception. -/
theorem invoke_same_calls
    {invoke : StateGraph (EStateM Exc (σ × List Call)) StateDict → StateDict → EStateM Exc (σ × List Call) StateDict}
    (hinvoke : StateGraph.RunsInEdgeOrder recursionLimit invoke) (O : OrchestratorService σ) (state : StateDict) (s : σ) :
    invoke O.logged.buildGraph state (s, []) = O.logged.runWithoutGraphOn state (s, []) := by
  rw [O.logged.invoke_eq hinvoke]

/-- A service whose model is down. -/
def modelDown : OrchestratorService Nat where
  retrieve _ := modifyGet fun n => ([⟨"doc", "c0", "snippet", 1⟩], n + 1)
  review answer _ _ := return (answer, 1)
  generate _ _ _ := throw ⟨.other, "model down"⟩
  readShort _ _ _ := return []
  readLong _ _ _ := return []
  writeShort _ _ _ content := return ⟨.short, content⟩
  writeLong _ _ content _ := return ⟨.long, content⟩
  assemble input := return input.task
  buildContext layers := return layers.taskContext
  loadSkills := return []
  newTraceId := return "t1"
  plan _ := return [.respond "answer user question"]
  execute _ _ := return []
  listCapabilities := return []
  inc _ := return ⟨⟩
  record _ := return "e1"
  graph := true

/-- The state of a first question. -/
def firstQuestion : StateDict :=
  .ofState { request := { sessionId := "s1", input := "what is new", input_ne := by decide }, traceId := "t1" }

/-- Both raise at the call of the model. -/
theorem modelDown_same_calls :
    StateGraph.walk (throw ⟨.other, "recursion limit"⟩) recursionLimit modelDown.logged.buildGraph firstQuestion (0, []) =
      modelDown.logged.runWithoutGraphOn firstQuestion (0, []) :=
  invoke_same_calls (StateGraph.walk_runsInEdgeOrder _ _) modelDown firstQuestion 0

end OrchestratorService

end Ochestrate
