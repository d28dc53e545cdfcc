import Ochestrate.Framework.Strings
import Ochestrate.Schemas.Api
import Ochestrate.Tools.Base

/-!
# The planner

`app/agents/planner.py`: a request becomes a list of steps, at most one of them
from the client's `tool_payload`. `plannedNames` are the parameters that a
planned step can have, whatever the request says.
-/

namespace Ochestrate

/-- A step of a plan, by its `kind`. -/
inductive Step
  | validatePermissions
  | respond (instruction : String)
  | tool (toolName : String) (params : Params)
  deriving DecidableEq

/-- The tools that a plan calls. -/
def toolNamesOf (steps : List Step) : List String :=
  steps.filterMap fun
    | .tool toolName _ => some toolName
    | _ => none

namespace PlannerAgent

/-- `_step_from_payload`. -/
def stepFromPayload (B : Builtins) : Option ToolPayload → Option Step
  | none => none
  | some payload =>
    let resourceType := B.lower payload.resourceType
    let operation := B.lower payload.operation
    let params : Params := Dict.empty.update [
      (.str "operation", .str operation), (.str "resource_type", .str resourceType),
      (.str "resource_path", .ofOption .str payload.resourcePath), (.str "url", .ofOption .str payload.url),
      (.str "sql", .ofOption .str payload.sql), (.str "options", .ofDict payload.options),
      (.str "content", payload.content)]
    if resourceType ∈ ["file", "json", "doc", "docx", "excel", "xlsx", "pdf", "txt", "csv"] then
      some (.tool "file_tool" params)
    else if resourceType ∈ ["web", "url"] then
      some (.tool (if operation = "search" then "web_search_tool" else "web_fetch_tool") params)
    else if resourceType ∈ ["database", "sql"] then
      some (.tool "database_tool" params)
    else none

/-- The tool steps that the words of an automation request ask for. -/
def stepsFromInput (B : Builtins) (input : String) : List Step :=
  let raw := B.lower input
  (if containsText "email" raw then
    [.tool "send_email" (Dict.empty.update
      [(.str "to", .str "unknown@company.com"), (.str "subject", .str "Automated message")])]
  else []) ++
  (if containsText "calendar" raw ∨ containsText "meeting" raw then
    [.tool "create_calendar_event" (Dict.empty.update
      [(.str "title", .str "Automated Event"), (.str "when", .str "tomorrow 10:00")])]
  else []) ++
  (if containsText "search" raw ∨ containsText "web" raw then
    [.tool "web_search_tool" (Dict.empty.update
      [(.str "query", .str input), (.str "max_results", .int 5), (.str "include_fetch", .bool true)])]
  else [])

def plan (B : Builtins) (request : UnifiedRequest) : List Step :=
  match stepFromPayload B request.toolPayload with
  | some step => [.validatePermissions, step]
  | none =>
    if request.taskType ≠ .automation then [.respond "answer user question"]
    else
      match stepsFromInput B request.input with
      | [] => [.validatePermissions, .respond "no matching automation tool"]
      | steps => .validatePermissions :: steps

/-- The names that the parameters of a planned step can have. -/
def plannedNames : List String :=
  ["operation", "resource_type", "resource_path", "url", "sql", "options", "content", "to", "subject", "title",
    "when", "query", "max_results", "include_fetch"]

/-- The words of a request ask for each tool at most once. -/
theorem toolNamesOf_stepsFromInput (B : Builtins) (input : String) :
    (toolNamesOf (stepsFromInput B input)).Sublist ["send_email", "create_calendar_event", "web_search_tool"] := by
  have hone : ∀ (p : Prop) [Decidable p] (toolName : String) (planned : Params),
      (toolNamesOf (if p then [.tool toolName planned] else [])).Sublist [toolName] := by
    intro p _ toolName planned
    split <;> simp [toolNamesOf]
  unfold stepsFromInput
  dsimp only
  rw [toolNamesOf, List.filterMap_append, List.filterMap_append]
  exact ((hone _ "send_email" _).append (hone _ "create_calendar_event" _)).append (hone _ "web_search_tool" _)

/-- A plan calls each tool at most once. -/
theorem plan_nodup (B : Builtins) (request : UnifiedRequest) : (toolNamesOf (plan B request)).Nodup := by
  unfold plan
  split
  · next step _ => cases step <;> simp [toolNamesOf]
  · split
    · simp [toolNamesOf]
    · have hsteps := toolNamesOf_stepsFromInput B request.input
      split
      · simp [toolNamesOf]
      · have hnodup : ["send_email", "create_calendar_event", "web_search_tool"].Nodup := by decide
        exact hnodup.sublist hsteps

/-- A dictionary made of pairs has no key but theirs. -/
theorem get?_planned {pairs : List (Key × Json)} (h : pairs.map Prod.fst ⊆ plannedNames.map Key.str) {name : String}
    (hn : name ∉ plannedNames) : (Dict.empty.update pairs : Params).get? (.str name) = none := by
  rw [Dict.get?_update_of_notMem]
  · rfl
  · intro hname
    obtain ⟨_, hmem, ⟨⟩⟩ := List.mem_map.1 (h hname)
    exact hn hmem

/-- The tool that a payload's resource type and operation stand for. -/
def payloadTool (B : Builtins) (payload : ToolPayload) : Option String :=
  if B.lower payload.resourceType ∈ ["file", "json", "doc", "docx", "excel", "xlsx", "pdf", "txt", "csv"] then
    some "file_tool"
  else if B.lower payload.resourceType ∈ ["web", "url"] then
    some (if B.lower payload.operation = "search" then "web_search_tool" else "web_fetch_tool")
  else if B.lower payload.resourceType ∈ ["database", "sql"] then some "database_tool"
  else none

/-- The parameters that are made of a payload, whatever its tool. -/
def payloadParams (B : Builtins) (payload : ToolPayload) : Params :=
  Dict.empty.update [
    (.str "operation", .str (B.lower payload.operation)), (.str "resource_type", .str (B.lower payload.resourceType)),
    (.str "resource_path", .ofOption .str payload.resourcePath), (.str "url", .ofOption .str payload.url),
    (.str "sql", .ofOption .str payload.sql), (.str "options", .ofDict payload.options),
    (.str "content", payload.content)]

theorem stepFromPayload_eq (B : Builtins) (payload : ToolPayload) :
    stepFromPayload B (some payload) =
      (payloadTool B payload).map fun toolName => .tool toolName (payloadParams B payload) := by
  unfold stepFromPayload payloadTool
  dsimp only
  split
  · rfl
  · split
    · rfl
    · split
      · rfl
      · rfl

theorem stepFromPayload_params {B : Builtins} {payload : Option ToolPayload} {toolName : String}
    {params : Params} (h : stepFromPayload B payload = some (.tool toolName params)) {name : String}
    (hn : name ∉ plannedNames) : params.get? (.str name) = none := by
  obtain _ | payload := payload
  · cases h
  · rw [stepFromPayload_eq] at h
    obtain ⟨_, -, ⟨⟩⟩ := Option.map_eq_some_iff.1 h
    exact get?_planned (by simp [plannedNames]) hn

theorem stepsFromInput_params {B : Builtins} {input toolName : String} {params : Params}
    (h : .tool toolName params ∈ stepsFromInput B input) {name : String} (hn : name ∉ plannedNames) :
    params.get? (.str name) = none := by
  simp only [stepsFromInput, List.mem_append] at h
  rcases h with (h | h) | h <;> split at h <;> simp only [List.mem_singleton, List.not_mem_nil] at h <;>
    cases h <;> exact get?_planned (by simp [plannedNames]) hn

/-- A planned tool step has parameters of the planner's own names only. -/
theorem plan_params {B : Builtins} {request : UnifiedRequest} {toolName : String} {params : Params}
    (h : .tool toolName params ∈ plan B request) {name : String} (hn : name ∉ plannedNames) :
    params.get? (.str name) = none := by
  unfold plan at h
  split at h
  · next step hs =>
    obtain rfl : .tool toolName params = step := by simpa using h
    exact stepFromPayload_params hs hn
  · split at h
    · simp at h
    · split at h
      · simp at h
      · exact stepsFromInput_params (by simpa using h) hn

end PlannerAgent

end Ochestrate
