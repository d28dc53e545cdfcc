import Ochestrate.Agents.Planner
import Ochestrate.Tools.Hub

/-!
# The executor

`app/agents/executor.py`: the tool steps of a plan are invoked one after the
other, each with the client's override merged into its parameters. A tool that
raises gives a failed action and the loop goes on; an override that cannot be
merged raises out of the loop. `handed` are the dictionaries that reach the hub
until then, and `execute_dispatches` says that no others are handed out.
-/

namespace Ochestrate

/-- The arguments of `execute` besides the steps. -/
structure ExecuteContext where
  userRole : Json
  traceId : String
  tenantId : String
  userId : String
  policy : ExecutionPolicy
  toolOverrides : Option (Dict String Json) := none

namespace ExecutorAgent

open ToolHub

variable {ω : Type}

/-- `(tool_overrides or {}).get(tool_name, {})`. -/
def overrideOf (c : ExecuteContext) (toolName : String) : Json :=
  ((c.toolOverrides.getD .empty).get? toolName).getD (.obj [])

/-- The parameter that confirms a write. -/
def confirmKey (B : Builtins) (params : Params) : Key :=
  .str (B.str ((params.get? (.str "confirm_field")).getD (.str "confirm_write")))

/-- The planned parameters with the pairs of the override, and for the database
tool the policy's confirmation where the parameters have none. -/
def merge (B : Builtins) (c : ExecuteContext) (toolName : String) (planned : Params)
    (pairs : List (Key × Json)) : Params :=
  let params := planned.update pairs
  if toolName = "database_tool" then
    params.setDefault (confirmKey B params) (.bool c.policy.confirmWrite)
  else params

/-- The call of a tool with merged parameters. -/
def toolCall (B : Builtins) (c : ExecuteContext) (toolName : String) (params : Params) : ToolCall where
  toolName
  userRole := c.userRole
  idempotencyKey := B.sha1 (c.traceId ++ ":" ++ toolName ++ ":" ++ B.repr params)
  traceId := c.traceId
  tenantId := c.tenantId
  userId := c.userId
  params

/-- The action of a tool that returned. -/
def successAction (toolName : String) (result : ToolInvokeResult) : Action where
  toolName
  status := .success
  output := result.output
  auditRef := some result.auditRef
  policyApplied := result.policyApplied

/-- The action of a tool that raised. -/
def failedAction (toolName : String) (exc : Exc) : Action :=
  match exc.type with
  | .permissionError =>
    { toolName, status := .failed, output := Dict.empty.set "error" (.str exc.message),
      errorCode := some "POLICY_DENIED", policyApplied := Dict.empty.set "permission" (.str "denied") }
  | _ =>
    { toolName, status := .failed, output := Dict.empty.set "error" (.str exc.message),
      errorCode := some "TOOL_EXECUTION_ERROR" }

/-- The call and its action; every exception becomes a failed action. -/
def invokeStep (B : Builtins) (call : ToolCall) : EStateM Exc (ToolHub ω) Action :=
  tryCatch (do
    let result ← ToolHub.invoke B call
    return successAction call.toolName result)
  fun exc => return failedAction call.toolName exc

/-- One round of the loop. -/
def executeStep (B : Builtins) (c : ExecuteContext) (actions : List Action) :
    Step → EStateM Exc (ToolHub ω) (List Action)
  | .validatePermissions => return actions
  | .respond _ => return actions
  | .tool toolName planned =>
    match (overrideOf c toolName).updatePairs with
    | .error exc => throw exc
    | .ok pairs => do
      let action ← invokeStep B (toolCall B c toolName (merge B c toolName planned pairs))
      return actions ++ [action]

def execute (B : Builtins) (steps : List Step) (c : ExecuteContext) :
    EStateM Exc (ToolHub ω) (List Action) :=
  if c.policy.autoExecute then steps.foldlM (executeStep B c) []
  else
    return [{ toolName := "policy_gate", status := .skipped
              output := Dict.empty.set "reason" (.str "auto_execute_disabled")
              policyApplied := Dict.empty.set "auto_execute" (.bool false) }]

/-- The dictionaries that a plan hands to the hub, with the caller's context:
those of the tool steps up to the first override that cannot be merged. -/
def handed (B : Builtins) (c : ExecuteContext) : List Step → List Params
  | [] => []
  | .validatePermissions :: steps => handed B c steps
  | .respond _ :: steps => handed B c steps
  | .tool toolName planned :: steps =>
    match (overrideOf c toolName).updatePairs with
    | .error _ => []
    | .ok pairs => (toolCall B c toolName (merge B c toolName planned pairs)).injected :: handed B c steps

variable {P : Params → Prop}

theorem invokeStep_dispatches (B : Builtins) {call : ToolCall} (h : P call.injected) :
    Along (Dispatches P) (invokeStep B call : EStateM Exc (ToolHub ω) Action) (fun _ => True) := by
  refine Dispatches.tryCatch ?_ fun exc => ?_
  · exact Dispatches.bind (invoke_dispatches B h) fun _ _ => Dispatches.pure trivial
  · exact Dispatches.pure trivial

theorem invokeStep_ok {B : Builtins} {call : ToolCall} {hub hub' : ToolHub ω} {result : ToolInvokeResult}
    (h : invoke B call hub = .ok result hub') :
    invokeStep B call hub = .ok (successAction call.toolName result) hub' := by
  unfold invokeStep
  exact tryCatch_ok (bind_ok h fun result => pure (successAction call.toolName result)) _

/-- The action of a call, by how it went. -/
def answer (call : ToolCall) : EStateM.Result Exc (ToolHub ω) ToolInvokeResult → Action
  | .ok result _ => successAction call.toolName result
  | .error exc _ => failedAction call.toolName exc

/-- A step of the executor does not raise, and does to the hub what the call does. -/
theorem invokeStep_eq (B : Builtins) (call : ToolCall) (hub : ToolHub ω) :
    invokeStep B call hub = .ok (answer call (invoke B call hub)) (finalState (invoke B call hub)) := by
  cases hinvoke : invoke B call hub with
  | ok result hub' => exact invokeStep_ok hinvoke
  | error exc hub' =>
    unfold invokeStep
    rw [tryCatch_error (bind_error hinvoke _)]
    rfl

/-- The rounds hand out the dictionaries of the steps that are left. -/
theorem rounds_dispatches (B : Builtins) (c : ExecuteContext) (steps : List Step)
    (h : ∀ params ∈ handed B c steps, P params) (actions : List Action) :
    Along (Dispatches P) (steps.foldlM (executeStep B c) actions : EStateM Exc (ToolHub ω) (List Action))
      (fun _ => True) := by
  induction steps generalizing actions with
  | nil => exact Dispatches.pure trivial
  | cons step steps ih =>
    rw [List.foldlM_cons]
    cases step with
    | validatePermissions => exact ih h actions
    | respond => exact ih h actions
    | tool toolName planned =>
      simp only [handed] at h
      simp only [executeStep]
      split
      · exact Dispatches.bind (Dispatches.throw (Q := fun _ => False) _) fun _ hno => hno.elim
      · next pairs hp =>
        simp only [hp, List.mem_cons, forall_eq_or_imp] at h
        rw [bind_assoc]
        exact Dispatches.bind (invokeStep_dispatches B h.1) fun action _ => ih h.2 _

/-- The executor hands out no dictionary but those of `handed`. -/
theorem execute_dispatches (B : Builtins) (c : ExecuteContext) (steps : List Step)
    (h : c.policy.autoExecute = true → ∀ params ∈ handed B c steps, P params) :
    Along (Dispatches P) (execute B steps c : EStateM Exc (ToolHub ω) (List Action)) (fun _ => True) := by
  unfold execute
  split
  · next ha => exact rounds_dispatches B c steps (h ha) []
  · exact Dispatches.pure trivial

end ExecutorAgent

end Ochestrate
