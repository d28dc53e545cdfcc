import Ochestrate.Agents.Executor
import Ochestrate.Tools.Accounting

/-!
# What an execution makes of its steps

An execution is a sequence of calls of the hub (`callsOf`), one for each tool
step, up to the first override that cannot be merged; whatever a call does, its
outcome becomes an action (`execute_eq`). So there is an action for every tool
step exactly if all overrides can be merged (`execute_reports_iff`).
-/

namespace Ochestrate

open ToolHub PlannerAgent

namespace ExecutorAgent

variable {ω : Type} (B : Builtins) (c : ExecuteContext)

/-- The calls of the tool steps, up to the first override that cannot be merged,
with the exception that it raises. -/
def callsOf : List Step → List ToolCall × Option Exc
  | [] => ([], none)
  | .validatePermissions :: steps => callsOf steps
  | .respond _ :: steps => callsOf steps
  | .tool toolName planned :: steps =>
    match (overrideOf c toolName).updatePairs with
    | .error exc => ([], some exc)
    | .ok pairs => (toolCall B c toolName (merge B c toolName planned pairs) :: (callsOf steps).1, (callsOf steps).2)

/-- The hub after calls, whether they return or raise. -/
def afterCalls (calls : List ToolCall) (hub : ToolHub ω) : ToolHub ω :=
  calls.foldl (fun hub call => finalState (invoke B call hub)) hub

/-- The actions of calls that are made one after the other. -/
def answers : List ToolCall → ToolHub ω → List Action
  | [], _ => []
  | call :: calls, hub => answer call (invoke B call hub) :: answers calls (finalState (invoke B call hub))

/-- An action for each tool step, in their order, that says how the call of the
step went. -/
inductive Reported : List Step → ToolHub ω → List Action → ToolHub ω → Prop
  | nil (hub : ToolHub ω) : Reported [] hub [] hub
  | skip {step : Step} {steps : List Step} {hub hub' : ToolHub ω} {actions : List Action}
      (hstep : toolNamesOf [step] = []) (hrest : Reported steps hub actions hub') :
      Reported (step :: steps) hub actions hub'
  | returned {toolName : String} {planned : Params} {pairs : List (Key × Json)} {steps : List Step}
      {hub hub₁ hub' : ToolHub ω} {result : ToolInvokeResult} {action : Action} {actions : List Action}
      (hpairs : (overrideOf c toolName).updatePairs = .ok pairs)
      (hinvoke : invoke B (toolCall B c toolName (merge B c toolName planned pairs)) hub = .ok result hub₁)
      (hname : action.toolName = toolName) (hstatus : action.status = .success) (hcode : action.errorCode = none)
      (hrest : Reported steps hub₁ actions hub') :
      Reported (.tool toolName planned :: steps) hub (action :: actions) hub'
  | raised {toolName : String} {planned : Params} {pairs : List (Key × Json)} {steps : List Step}
      {hub hub₁ hub' : ToolHub ω} {exc : Exc} {action : Action} {actions : List Action}
      (hpairs : (overrideOf c toolName).updatePairs = .ok pairs)
      (hinvoke : invoke B (toolCall B c toolName (merge B c toolName planned pairs)) hub = .error exc hub₁)
      (hname : action.toolName = toolName) (hstatus : action.status = .failed)
      (hcode : action.errorCode =
        some (if exc.type = .permissionError then "POLICY_DENIED" else "TOOL_EXECUTION_ERROR"))
      (hrest : Reported steps hub₁ actions hub') :
      Reported (.tool toolName planned :: steps) hub (action :: actions) hub'

variable {hub : ToolHub ω}

/-- The rounds make the calls of the steps that are left. -/
theorem rounds_eq (steps : List Step) (actions : List Action) (hub : ToolHub ω) :
    steps.foldlM (executeStep B c) actions hub =
      match (callsOf B c steps).2 with
      | none => .ok (actions ++ answers B (callsOf B c steps).1 hub) (afterCalls B (callsOf B c steps).1 hub)
      | some exc => .error exc (afterCalls B (callsOf B c steps).1 hub) := by
  induction steps generalizing actions hub with
  | nil =>
    show EStateM.Result.ok actions hub = .ok (actions ++ []) hub
    rw [List.append_nil]
  | cons step steps ih =>
    rw [List.foldlM_cons]
    cases step with
    | validatePermissions => exact ih actions hub
    | respond => exact ih actions hub
    | tool toolName planned =>
      simp only [executeStep, callsOf]
      cases hpairs : (overrideOf c toolName).updatePairs with
      | error exc => rfl
      | ok pairs =>
        let call := toolCall B c toolName (merge B c toolName planned pairs)
        show ((invokeStep B call >>= fun action => pure (actions ++ [action])) >>= fun actions =>
          steps.foldlM (executeStep B c) actions) hub = _
        rw [bind_assoc, bind_ok (invokeStep_eq B call hub), pure_bind, ih]
        have hactions : actions ++ answers B (call :: (callsOf B c steps).1) hub =
            actions ++ [answer call (invoke B call hub)] ++
              answers B (callsOf B c steps).1 (finalState (invoke B call hub)) := by
          rw [List.append_assoc]
          rfl
        rw [hactions]
        rfl

/-- An execution makes the calls of its steps and raises what the first bad
override raises, or returns the actions of the calls. -/
theorem execute_eq (steps : List Step) (hub : ToolHub ω) (hauto : c.policy.autoExecute = true) :
    execute B steps c hub =
      match (callsOf B c steps).2 with
      | none => .ok (answers B (callsOf B c steps).1 hub) (afterCalls B (callsOf B c steps).1 hub)
      | some exc => .error exc (afterCalls B (callsOf B c steps).1 hub) := by
  unfold execute
  rw [if_pos hauto, rounds_eq]
  rfl

/-- Nothing is raised exactly if `dict.update` takes the override of each tool
step. -/
theorem callsOf_none_iff (steps : List Step) :
    (callsOf B c steps).2 = none ↔ ∀ toolName ∈ toolNamesOf steps, ∃ pairs, (overrideOf c toolName).updatePairs = .ok pairs := by
  induction steps with
  | nil => simp [callsOf, toolNamesOf]
  | cons step steps ih =>
    cases step with
    | validatePermissions => exact ih
    | respond => exact ih
    | tool toolName planned =>
      have hnames : toolNamesOf (.tool toolName planned :: steps) = toolName :: toolNamesOf steps := rfl
      rw [hnames, List.forall_mem_cons, ← ih, callsOf]
      cases (overrideOf c toolName).updatePairs with
      | error exc => simp
      | ok pairs => simp

/-- A call of an execution is that of a step whose override is merged. -/
theorem mem_callsOf {steps : List Step} {call : ToolCall} (h : call ∈ (callsOf B c steps).1) :
    ∃ toolName planned pairs, .tool toolName planned ∈ steps ∧ (overrideOf c toolName).updatePairs = .ok pairs ∧
      call = toolCall B c toolName (merge B c toolName planned pairs) := by
  induction steps with
  | nil => cases h
  | cons step steps ih =>
    have hrest : call ∈ (callsOf B c steps).1 →
        ∃ toolName planned pairs, .tool toolName planned ∈ step :: steps ∧
          (overrideOf c toolName).updatePairs = .ok pairs ∧
          call = toolCall B c toolName (merge B c toolName planned pairs) := by
      intro h
      obtain ⟨toolName, planned, pairs, hmem, hcall⟩ := ih h
      exact ⟨toolName, planned, pairs, List.mem_cons_of_mem _ hmem, hcall⟩
    cases step with
    | validatePermissions => exact hrest h
    | respond => exact hrest h
    | tool toolName planned =>
      simp only [callsOf] at h
      cases hpairs : (overrideOf c toolName).updatePairs with
      | error exc => simp [hpairs] at h
      | ok pairs =>
        simp only [hpairs, List.mem_cons] at h
        obtain rfl | h := h
        · exact ⟨toolName, planned, pairs, List.mem_cons_self .., hpairs, rfl⟩
        · exact hrest h

theorem answer_error (call : ToolCall) (exc : Exc) (hub : ToolHub ω) :
    (answer call (.error exc hub : EStateM.Result Exc (ToolHub ω) ToolInvokeResult)).toolName = call.toolName ∧
      (answer call (.error exc hub : EStateM.Result Exc (ToolHub ω) ToolInvokeResult)).status = .failed ∧
      (answer call (.error exc hub : EStateM.Result Exc (ToolHub ω) ToolInvokeResult)).errorCode =
        some (if exc.type = .permissionError then "POLICY_DENIED" else "TOOL_EXECUTION_ERROR") := by
  obtain ⟨type, message⟩ := exc
  cases type <;> exact ⟨rfl, rfl, rfl⟩

/-- The actions of the calls report on the steps. -/
theorem reported_answers {steps : List Step} (h : (callsOf B c steps).2 = none) (hub : ToolHub ω) :
    Reported B c steps hub (answers B (callsOf B c steps).1 hub) (afterCalls B (callsOf B c steps).1 hub) := by
  induction steps generalizing hub with
  | nil => exact .nil hub
  | cons step steps ih =>
    cases step with
    | validatePermissions => exact .skip rfl (ih h hub)
    | respond => exact .skip rfl (ih h hub)
    | tool toolName planned =>
      simp only [callsOf] at h ⊢
      cases hpairs : (overrideOf c toolName).updatePairs with
      | error exc => simp [hpairs] at h
      | ok pairs =>
        simp only [hpairs] at h ⊢
        have hrest := ih h (finalState (invoke B (toolCall B c toolName (merge B c toolName planned pairs)) hub))
        cases hinvoke : invoke B (toolCall B c toolName (merge B c toolName planned pairs)) hub with
        | ok result hub₁ =>
          rw [hinvoke] at hrest
          simp only [answers, afterCalls, List.foldl_cons, hinvoke]
          exact .returned hpairs hinvoke rfl rfl rfl hrest
        | error exc hub₁ =>
          rw [hinvoke] at hrest
          have hanswer := answer_error (toolCall B c toolName (merge B c toolName planned pairs)) exc hub₁
          simp only [answers, afterCalls, List.foldl_cons, hinvoke]
          exact .raised hpairs hinvoke hanswer.1 hanswer.2.1 hanswer.2.2 hrest

/-- The execution of a plan returns an action for each tool step, whatever the
tools do, exactly if `dict.update` takes the overrides of the tools it plans. -/
theorem execute_reports_iff (request : UnifiedRequest) (hub : ToolHub ω) (hauto : c.policy.autoExecute = true) :
    (∃ actions hub', execute B (plan B request) c hub = .ok actions hub' ∧
        Reported B c (plan B request) hub actions hub') ↔
      ∀ toolName ∈ toolNamesOf (plan B request), ∃ pairs, (overrideOf c toolName).updatePairs = .ok pairs := by
  rw [← callsOf_none_iff B, execute_eq B c _ hub hauto]
  constructor
  · rintro ⟨actions, hub', hrun, -⟩
    cases hnone : (callsOf B c (plan B request)).2 with
    | none => rfl
    | some exc =>
      rw [hnone] at hrun
      cases hrun
  · intro hnone
    rw [hnone]
    exact ⟨_, _, rfl, reported_answers B c hnone hub⟩

/-! ## An email -/

/-- The functions of the language on the texts of one email. -/
def mailBuiltins : Builtins :=
  { asciiBuiltins with
    repr := fun _ => "\x7b'to': 'unknown@company.com', 'subject': 'Automated message'\x7d"
    sha1 := fun _ => "060e223eeb1502a62a811c9bb68d371e12493786" }

def mailRequest : UnifiedRequest where
  sessionId := "s1"
  taskType := .automation
  input := "please send an email"
  input_ne := by decide

def mailContext (overrides : List (String × Json)) : ExecuteContext where
  userRole := .str "employee"
  traceId := "trace-1"
  tenantId := "acme"
  userId := "u1"
  policy := {}
  toolOverrides := some (Dict.empty.update overrides)

def mailHub : ToolHub Unit := fresh (Dict.empty.set "send_email" sendEmailTool) (pure "event-1") (pure .none) ()

theorem mail_reported :
    ∃ actions hub, execute mailBuiltins (plan mailBuiltins mailRequest) (mailContext []) mailHub =
        .ok actions hub ∧
      Reported mailBuiltins (mailContext []) (plan mailBuiltins mailRequest) mailHub actions hub := by
  refine (execute_reports_iff mailBuiltins (mailContext []) mailRequest mailHub rfl).2 fun toolName htool => ?_
  have hnames : toolNamesOf (plan mailBuiltins mailRequest) = ["send_email"] := by decide
  rw [hnames, List.mem_singleton] at htool
  subst htool
  exact ⟨[], by decide⟩

/-- An override that is `null` is raised out of the execution. -/
theorem null_override_raised :
    toolNamesOf (plan mailBuiltins mailRequest) = ["send_email"] ∧
      execute mailBuiltins (plan mailBuiltins mailRequest) (mailContext [("send_email", .null)]) mailHub =
        .error ⟨.typeError, "'NoneType' object is not iterable"⟩ mailHub :=
  ⟨by decide, rfl⟩

end ExecutorAgent

end Ochestrate
