import Ochestrate.Api.Agent

/-!
# The tools that a run of the orchestrator calls

`RunsWithin names` is what a program may do to the hub that calls tools of these
names only, each at most as often and in the order in which they are listed.
One call runs one tool (`invokeStep_within`), a loop over steps those of the
steps (`rounds_within`), and a run of the orchestrator those of its plan
(`run_within`), which has no tool twice.
-/

namespace Ochestrate

open ToolHub ExecutorAgent PlannerAgent

variable {ω : Type}

/-- Between two states: the tools that were run are among these, in this order,
and no tool was registered. -/
def RunsWithin (names : List String) (hub hub' : ToolHub ω) : Prop :=
  ∃ runs, hub'.runs = hub.runs ++ runs ∧ (runs.map (·.call.toolName)).Sublist names ∧ hub'.registry = hub.registry

variable {hub hub' hub'' : ToolHub ω} {names names' : List String}

theorem RunsWithin.of_eq (hruns : hub'.runs = hub.runs) (hregistry : hub'.registry = hub.registry) :
    RunsWithin names hub hub' :=
  ⟨[], by rw [hruns, List.append_nil], List.nil_sublist names, hregistry⟩

theorem RunsWithin.append (h : RunsWithin names hub hub') (h' : RunsWithin names' hub' hub'') :
    RunsWithin (names ++ names') hub hub'' := by
  obtain ⟨runs, hruns, hnames, hregistry⟩ := h
  obtain ⟨runs', hruns', hnames', hregistry'⟩ := h'
  refine ⟨runs ++ runs', by rw [hruns', hruns, List.append_assoc], ?_, by rw [hregistry', hregistry]⟩
  rw [List.map_append]
  exact hnames.append hnames'

theorem RunsWithin.mono (h : RunsWithin names hub hub') (hsub : names.Sublist names') : RunsWithin names' hub hub' := by
  obtain ⟨runs, hruns, hnames, hregistry⟩ := h
  exact ⟨runs, hruns, hnames.trans hsub, hregistry⟩

theorem RunsWithin.one {call : ToolCall} {params : Params} {output : Option (Dict String Json)}
    (hruns : hub'.runs = hub.runs ++ [⟨call, params, output⟩]) (hregistry : hub'.registry = hub.registry) :
    RunsWithin [call.toolName] hub hub' :=
  ⟨_, hruns, List.Sublist.refl _, hregistry⟩

theorem record_within (payload : AuditPayload) :
    Along (RunsWithin []) (record payload : EStateM Exc (ToolHub ω) String) (fun _ => True) := by
  intro hub
  cases hrecord : record payload hub with
  | ok eventId hub' =>
    obtain ⟨-, hrecorded⟩ := recorded_ok hrecord
    exact ⟨.of_eq hrecorded.runs hrecorded.registry, trivial⟩
  | error exc hub' =>
    obtain ⟨-, hrecorded⟩ := recorded_error hrecord
    exact .of_eq hrecorded.runs hrecorded.registry

/-- The stages that neither plan nor execute run no tool. -/
theorem idle_within : Idle (RunsWithin [] : ToolHub ω → ToolHub ω → Prop) where
  refl _ := .of_eq rfl rfl
  trans _ _ _ := .append
  outside x := Along.zoomed (fun _ _ => .of_eq rfl rfl) x
  inc _ := Along.modify fun _ => .of_eq rfl rfl
  record payload _ := record_within payload

/-- A call runs its tool, or none. -/
theorem invoke_within {call : ToolCall} {r : EStateM.Result Exc (ToolHub ω) ToolInvokeResult}
    (h : Invoked hub call r) : RunsWithin [call.toolName] hub (finalState r) := by
  cases h with
  | unregistered => exact .of_eq rfl rfl
  | denied => exact .of_eq rfl rfl
  | hit => exact .of_eq rfl rfl
  | raised => exact .one rfl rfl
  | unrecorded _ _ _ _ hrecord =>
    obtain ⟨-, hrecorded⟩ := recorded_error hrecord
    exact .one hrecorded.runs hrecorded.registry
  | returned _ _ _ _ hrecord =>
    obtain ⟨-, hrecorded⟩ := recorded_ok hrecord
    exact .one ((keep_runs ..).trans hrecorded.runs) ((keep_registry ..).trans hrecorded.registry)

theorem invokeStep_within (B : Builtins) (call : ToolCall) :
    Along (RunsWithin [call.toolName]) (invokeStep B call : EStateM Exc (ToolHub ω) Action) (fun _ => True) := by
  intro hub
  rw [invokeStep_eq B call hub]
  exact ⟨invoke_within (invoke_cases B hub call), trivial⟩

/-- The rounds run the tools of the steps that are left. -/
theorem rounds_within (B : Builtins) (c : ExecuteContext) (steps : List Step) (actions : List Action) :
    Along (RunsWithin (toolNamesOf steps))
      (steps.foldlM (executeStep B c) actions : EStateM Exc (ToolHub ω) (List Action)) (fun _ => True) := by
  induction steps generalizing actions with
  | nil => exact Along.pure (fun _ => .of_eq rfl rfl) trivial
  | cons step steps ih =>
    rw [List.foldlM_cons]
    cases step with
    | validatePermissions => exact ih actions
    | respond => exact ih actions
    | tool toolName planned =>
      have hnames : toolNamesOf (.tool toolName planned :: steps) = [toolName] ++ toolNamesOf steps := rfl
      rw [hnames]
      simp only [executeStep]
      split
      · exact Along.throw (fun _ => .of_eq rfl rfl) _
      · next pairs _ =>
        rw [bind_assoc]
        have hleft : ∀ ⦃a b : ToolHub ω⦄, RunsWithin [toolName] a b → RunsWithin ([toolName] ++ toolNamesOf steps) a b :=
          fun _ _ h => h.mono (List.sublist_append_left _ _)
        exact Along.seq (fun _ _ _ => .append) hleft
          (invokeStep_within B (toolCall B c toolName (merge B c toolName planned pairs))) fun action _ => ih _

theorem execute_within (B : Builtins) (c : ExecuteContext) (steps : List Step) :
    Along (RunsWithin (toolNamesOf steps)) (execute B steps c : EStateM Exc (ToolHub ω) (List Action))
      (fun _ => True) := by
  unfold execute
  split
  · exact rounds_within B c steps []
  · exact Along.pure (fun _ => .of_eq rfl rfl) trivial

/-- A run of the orchestrator runs the tools of its plan, each at most once. -/
theorem run_within (B : Builtins) (K : Collaborators ω) (graph : Bool) (request : UnifiedRequest) :
    Along (RunsWithin (toolNamesOf (plan B request))) ((orchestrator B K graph).run request) (fun _ => True) := by
  refine idle_within.run (fun _ _ h => h.mono (List.nil_sublist _)) (fun _ _ _ => .append) ?_
    fun traceId => execute_within B _ _
  intro a b c h h'
  exact List.append_nil (toolNamesOf (plan B request)) ▸ h.append h'

end Ochestrate
