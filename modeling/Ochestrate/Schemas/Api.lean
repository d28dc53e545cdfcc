import Ochestrate.Schemas.Json

/-!
# Requests, responses and task status

The models of `app/schemas/api.py`. `modelDump` is `model_dump()`: the
dictionary a model is stored as. `Pydantic` is what the source relies on of
the validation of a stored dictionary, `UnifiedRequest(**doc)`: it accepts a
dumped model and gives it back. Any other document is accepted or rejected as
the package decides; `Pydantic.strict` accepts exactly the shape that
`modelDump` writes.
-/

namespace Ochestrate

inductive TaskType | qa | automation | analysis
  deriving DecidableEq, Repr

inductive Sensitivity | low | medium | high
  deriving DecidableEq, Repr

inductive SkillContextMode | auto | forceAll
  deriving DecidableEq, Repr

inductive ActionStatus | success | skipped | failed
  deriving DecidableEq, Repr

inductive MemoryType | short | long
  deriving DecidableEq, Repr

inductive TaskStatus | queued | running | completed | failed
  deriving DecidableEq, Repr

structure ToolPayload where
  operation : String
  resourceType : String
  resourcePath : Option String := none
  url : Option String := none
  sql : Option String := none
  options : Dict String Json := .empty
  content : Json := .null
  deriving DecidableEq

/-- The default of `max_cost_usd`. -/
def halfDollar : Rat := { num := 1, den := 2 }

structure ExecutionPolicy where
  sensitivity : Sensitivity := .medium
  maxCostUsd : Rat := halfDollar
  autoExecute : Bool := true
  requireHumanReview : Bool := false
  timeoutSeconds : Int := 60
  confirmWrite : Bool := false
  deriving DecidableEq

/-- A validated request; `Field(min_length=1)` is the field `input_ne`. -/
structure UnifiedRequest where
  tenantId : Option String := none
  userId : Option String := none
  sessionId : String
  taskType : TaskType := .qa
  input : String
  input_ne : input ≠ ""
  contextRefs : List String := []
  policy : ExecutionPolicy := {}
  metadata : Dict String Json := .empty
  toolPayload : Option ToolPayload := none
  toolOverrides : Dict String Json := .empty
  skillContextMode : SkillContextMode := .auto
  deriving DecidableEq

structure Citation where
  sourceId : String
  chunkId : String
  snippet : String
  score : Rat
  deriving DecidableEq

structure Action where
  toolName : String
  status : ActionStatus
  output : Dict String Json := .empty
  errorCode : Option String := none
  auditRef : Option String := none
  policyApplied : Dict String Json := .empty
  deriving DecidableEq

structure MemoryUpdate where
  memoryType : MemoryType
  content : String
  deriving DecidableEq

structure UnifiedResponse where
  answer : String
  citations : List Citation := []
  actions : List Action := []
  confidence : Rat := 0
  traceId : String
  memoryUpdates : List MemoryUpdate := []
  fallbackTriggered : Bool := false
  deriving DecidableEq

structure TaskStatusResponse where
  taskId : String
  status : TaskStatus
  traceId : Option String := none
  result : Option UnifiedResponse := none
  error : Option String := none
  deriving DecidableEq

/-- A validated request; `Field(ge=0.0, le=1.0)` are the fields of the score. -/
structure FeedbackRequest where
  tenantId : Option String := none
  userId : Option String := none
  traceId : String
  isCorrect : Bool
  score : Rat
  score_nonneg : 0 ≤ score
  score_le : score ≤ 1
  userEdit : Option String := none
  tags : List String := []
  deriving DecidableEq

/-- `Field(min_length=1)` is the field `text_ne`. -/
structure IngestTextRequest where
  tenantId : Option String := none
  sourceId : String
  text : String
  text_ne : text ≠ ""
  deriving DecidableEq

/-! ## The literal values -/

def TaskType.value : TaskType → String
  | .qa => "qa"
  | .automation => "automation"
  | .analysis => "analysis"

def Sensitivity.value : Sensitivity → String
  | .low => "low"
  | .medium => "medium"
  | .high => "high"

def SkillContextMode.value : SkillContextMode → String
  | .auto => "auto"
  | .forceAll => "force_all"

def ActionStatus.value : ActionStatus → String
  | .success => "success"
  | .skipped => "skipped"
  | .failed => "failed"

def MemoryType.value : MemoryType → String
  | .short => "short"
  | .long => "long"

/-- The member of an enumeration with a given literal value. -/
def ofLiteral {α : Type} (all : List α) (value : α → String) (j : Json) : Option α :=
  j.asStr.bind fun s => all.find? fun a => value a = s

/-! ## `model_dump()` -/

def ToolPayload.modelDump (p : ToolPayload) : Json :=
  .obj [("operation", .str p.operation), ("resource_type", .str p.resourceType),
    ("resource_path", .ofOption .str p.resourcePath), ("url", .ofOption .str p.url),
    ("sql", .ofOption .str p.sql), ("options", .ofDict p.options), ("content", p.content)]

def ExecutionPolicy.modelDump (p : ExecutionPolicy) : Json :=
  .obj [("sensitivity", .str p.sensitivity.value), ("max_cost_usd", .float p.maxCostUsd),
    ("auto_execute", .bool p.autoExecute), ("require_human_review", .bool p.requireHumanReview),
    ("timeout_seconds", .int p.timeoutSeconds), ("confirm_write", .bool p.confirmWrite)]

def UnifiedRequest.modelDump (r : UnifiedRequest) : Json :=
  .obj [("tenant_id", .ofOption .str r.tenantId), ("user_id", .ofOption .str r.userId),
    ("session_id", .str r.sessionId), ("task_type", .str r.taskType.value), ("input", .str r.input),
    ("context_refs", .arr (r.contextRefs.map .str)), ("policy", r.policy.modelDump),
    ("metadata", .ofDict r.metadata), ("tool_payload", .ofOption ToolPayload.modelDump r.toolPayload),
    ("tool_overrides", .ofDict r.toolOverrides), ("skill_context_mode", .str r.skillContextMode.value)]

def Citation.modelDump (c : Citation) : Json :=
  .obj [("source_id", .str c.sourceId), ("chunk_id", .str c.chunkId), ("snippet", .str c.snippet),
    ("score", .float c.score)]

def Action.modelDump (a : Action) : Json :=
  .obj [("tool_name", .str a.toolName), ("status", .str a.status.value), ("output", .ofDict a.output),
    ("error_code", .ofOption .str a.errorCode), ("audit_ref", .ofOption .str a.auditRef),
    ("policy_applied", .ofDict a.policyApplied)]

def MemoryUpdate.modelDump (m : MemoryUpdate) : Json :=
  .obj [("memory_type", .str m.memoryType.value), ("content", .str m.content)]

def UnifiedResponse.modelDump (r : UnifiedResponse) : Json :=
  .obj [("answer", .str r.answer), ("citations", .arr (r.citations.map Citation.modelDump)),
    ("actions", .arr (r.actions.map Action.modelDump)), ("confidence", .float r.confidence),
    ("trace_id", .str r.traceId), ("memory_updates", .arr (r.memoryUpdates.map MemoryUpdate.modelDump)),
    ("fallback_triggered", .bool r.fallbackTriggered)]

/-- A stored request is not the empty dictionary. -/
@[simp] theorem UnifiedRequest.truthy_modelDump (r : UnifiedRequest) : r.modelDump.truthy = true := rfl

/-- A stored response is not the empty dictionary. -/
@[simp] theorem UnifiedResponse.truthy_modelDump (r : UnifiedResponse) : r.modelDump.truthy = true := rfl

/-! ## Validation -/

/-- `UnifiedRequest(**doc)` and `UnifiedResponse(**doc)`; `none` where the
package raises. The dump of a model is read back as the model: what tools put out
counts as JSON here. -/
structure Pydantic where
  request : Json → Option UnifiedRequest
  response : Json → Option UnifiedResponse
  request_dump (r : UnifiedRequest) : request r.modelDump = some r
  response_dump (r : UnifiedResponse) : response r.modelDump = some r

def ToolPayload.ofJson (j : Json) : Option ToolPayload := do
  return {
    operation := ← (← j.field "operation").asStr
    resourceType := ← (← j.field "resource_type").asStr
    resourcePath := ← (← j.field "resource_path").asOption Json.asStr
    url := ← (← j.field "url").asOption Json.asStr
    sql := ← (← j.field "sql").asOption Json.asStr
    options := ← (← j.field "options").asDict
    content := ← j.field "content" }

def ExecutionPolicy.ofJson (j : Json) : Option ExecutionPolicy := do
  return {
    sensitivity := ← ofLiteral [.low, .medium, .high] Sensitivity.value (← j.field "sensitivity")
    maxCostUsd := ← (← j.field "max_cost_usd").asFloat
    autoExecute := ← (← j.field "auto_execute").asBool
    requireHumanReview := ← (← j.field "require_human_review").asBool
    timeoutSeconds := ← (← j.field "timeout_seconds").asInt
    confirmWrite := ← (← j.field "confirm_write").asBool }

def UnifiedRequest.ofJson (j : Json) : Option UnifiedRequest := do
  let input ← (← j.field "input").asStr
  if h : input ≠ "" then
    return {
      tenantId := ← (← j.field "tenant_id").asOption Json.asStr
      userId := ← (← j.field "user_id").asOption Json.asStr
      sessionId := ← (← j.field "session_id").asStr
      taskType := ← ofLiteral [.qa, .automation, .analysis] TaskType.value (← j.field "task_type")
      input := input
      input_ne := h
      contextRefs := ← (← j.field "context_refs").asList Json.asStr
      policy := ← ExecutionPolicy.ofJson (← j.field "policy")
      metadata := ← (← j.field "metadata").asDict
      toolPayload := ← (← j.field "tool_payload").asOption ToolPayload.ofJson
      toolOverrides := ← (← j.field "tool_overrides").asDict
      skillContextMode := ← ofLiteral [.auto, .forceAll] SkillContextMode.value
        (← j.field "skill_context_mode") }
  else none

def Citation.ofJson (j : Json) : Option Citation := do
  return {
    sourceId := ← (← j.field "source_id").asStr
    chunkId := ← (← j.field "chunk_id").asStr
    snippet := ← (← j.field "snippet").asStr
    score := ← (← j.field "score").asFloat }

def Action.ofJson (j : Json) : Option Action := do
  return {
    toolName := ← (← j.field "tool_name").asStr
    status := ← ofLiteral [.success, .skipped, .failed] ActionStatus.value (← j.field "status")
    output := ← (← j.field "output").asDict
    errorCode := ← (← j.field "error_code").asOption Json.asStr
    auditRef := ← (← j.field "audit_ref").asOption Json.asStr
    policyApplied := ← (← j.field "policy_applied").asDict }

def MemoryUpdate.ofJson (j : Json) : Option MemoryUpdate := do
  return {
    memoryType := ← ofLiteral [.short, .long] MemoryType.value (← j.field "memory_type")
    content := ← (← j.field "content").asStr }

def UnifiedResponse.ofJson (j : Json) : Option UnifiedResponse := do
  return {
    answer := ← (← j.field "answer").asStr
    citations := ← (← j.field "citations").asList Citation.ofJson
    actions := ← (← j.field "actions").asList Action.ofJson
    confidence := ← (← j.field "confidence").asFloat
    traceId := ← (← j.field "trace_id").asStr
    memoryUpdates := ← (← j.field "memory_updates").asList MemoryUpdate.ofJson
    fallbackTriggered := ← (← j.field "fallback_triggered").asBool }

theorem ToolPayload.ofJson_modelDump (p : ToolPayload) : ToolPayload.ofJson p.modelDump = some p := by
  simp [ofJson, modelDump]

theorem ExecutionPolicy.ofJson_modelDump (p : ExecutionPolicy) :
    ExecutionPolicy.ofJson p.modelDump = some p := by
  obtain ⟨sensitivity, maxCostUsd, autoExecute, requireHumanReview, timeoutSeconds, confirmWrite⟩ := p
  cases sensitivity <;> simp [ofJson, modelDump, ofLiteral, Sensitivity.value]

theorem UnifiedRequest.ofJson_modelDump (r : UnifiedRequest) :
    UnifiedRequest.ofJson r.modelDump = some r := by
  have hp := Json.asOption_ofOption ToolPayload.ofJson_modelDump (fun _ h => nomatch h) r.toolPayload
  have hc := Json.asList_map (f := Json.asStr) (g := Json.str) (fun _ => rfl) r.contextRefs
  obtain ⟨_, _, _, taskType, _, input_ne, _, _, _, _, _, mode⟩ := r
  simp only at hp hc
  cases taskType <;> cases mode <;>
    simp [ofJson, modelDump, ofLiteral, TaskType.value, SkillContextMode.value, hp, hc,
      input_ne, ExecutionPolicy.ofJson_modelDump]

theorem Citation.ofJson_modelDump (c : Citation) : Citation.ofJson c.modelDump = some c := by
  simp [ofJson, modelDump]

theorem Action.ofJson_modelDump (a : Action) : Action.ofJson a.modelDump = some a := by
  obtain ⟨_, status, _, _, _, _⟩ := a
  cases status <;> simp [ofJson, modelDump, ofLiteral, ActionStatus.value]

theorem MemoryUpdate.ofJson_modelDump (m : MemoryUpdate) : MemoryUpdate.ofJson m.modelDump = some m := by
  obtain ⟨memoryType, _⟩ := m
  cases memoryType <;> simp [ofJson, modelDump, ofLiteral, MemoryType.value]

theorem UnifiedResponse.ofJson_modelDump (r : UnifiedResponse) :
    UnifiedResponse.ofJson r.modelDump = some r := by
  have hc := Json.asList_map Citation.ofJson_modelDump r.citations
  have ha := Json.asList_map Action.ofJson_modelDump r.actions
  have hm := Json.asList_map MemoryUpdate.ofJson_modelDump r.memoryUpdates
  simp [ofJson, modelDump, hc, ha, hm]

/-- Validation that accepts exactly the fields and types of a dumped model. -/
def Pydantic.strict : Pydantic where
  request := UnifiedRequest.ofJson
  response := UnifiedResponse.ofJson
  request_dump := UnifiedRequest.ofJson_modelDump
  response_dump := UnifiedResponse.ofJson_modelDump

end Ochestrate
