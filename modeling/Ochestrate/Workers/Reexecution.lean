import Ochestrate.Orchestration.ToolRuns
import Ochestrate.Tools.Accounting
import Ochestrate.Workers.Node

/-!
# Tasks that are executed again

A `Process` is the task manager with the tool hub that its orchestrator calls:
the outcome of an execution is what the orchestrator returns or raises, and
`executed` records the tool runs by task. A task whose id is in the queue twice
is executed twice, and the idempotency key of a call contains the trace id,
which each run of the orchestrator draws anew, so a second execution finds none
of its keys in the cache (`email_sent_twice`).

`once_per_task` says that no tool that is declared idempotent completes twice
with the same parameters for a task, as long as no execution of a task begins
after one has completed such a tool.
-/

namespace Ochestrate

variable {ω : Type}

/-- A process: the task manager, the hub, and the tool runs of each task's
executions. `died` says that an exception has left the worker loop. -/
structure Process (ω : Type) where
  node : Node
  died : Bool := false
  hub : ToolHub ω
  executed : List (TaskId × ToolRun) := []

inductive ProcessEvent
  /-- A step of the task manager in which no call of the worker raises. -/
  | node (e : NodeEvent)
  /-- The worker's call of `update_status` raises. -/
  | fail (exc : Exc) (takesEffect : Bool)
  /-- The worker calls the orchestrator. -/
  | execute
  /-- Another caller in the process runs the orchestrator. -/
  | request (request : UnifiedRequest)

/-- What a call returned or raised. -/
def outcomeOf {ε σ α : Type} : EStateM.Result ε σ α → Except ε α
  | .ok a _ => .ok a
  | .error e _ => .error e

namespace Process

/-- `update_status` raises: in the `try` block the handler takes over, outside
and in the handler the exception leaves the loop. -/
def failStep (s : Process ω) (exc : Exc) (takesEffect : Bool) : Option (Process ω) :=
  match s.node.worker with
  | .holding id .marked =>
    let sys := if takesEffect then s.node.persist id .running else s.node.toSystem
    some { s with node := s.node.move sys .off, died := true }
  | .holding id (.finished (.ok result)) =>
    let sys := if takesEffect then s.node.persistOutcome id (.ok result) else s.node.toSystem
    some { s with node := s.node.move (sys.settle id (.error exc)) (.holding id (.finished (.error exc))) }
  | .holding id (.finished (.error raised)) =>
    let sys := if takesEffect then s.node.persistOutcome id (.error raised) else s.node.toSystem
    some { s with node := s.node.move sys .off, died := true }
  | _ => none

/-- Awaiting a loop that an exception left re-raises it, before `_worker_task`
is reset. -/
def nodeStep (P : Pydantic) (s : Process ω) : NodeEvent → Option (Process ω)
  | .run _ => none
  | .crash _ => none
  | .stop =>
    if s.died then some { s with node := { s.node with stopped := true } }
    else ((Ochestrate.node P).step s.node .stop).map fun node => { s with node }
  | e => ((Ochestrate.node P).step s.node e).map fun node => { s with node }

/-- `orchestrator.run(envelope.request)` on the hub of the process. -/
def executeStep (P : Pydantic) (B : Builtins) (K : Collaborators ω) (graph : Bool) (s : Process ω) :
    Option (Process ω) :=
  match s.node.worker with
  | .holding id .running =>
    (s.node.tasks.get? id).bind fun task =>
      let r := (orchestrator B K graph).run task.request s.hub
      let hub := finalState r
      ((Ochestrate.node P).step s.node (.run (outcomeOf r))).map fun node =>
        { s with
          node, hub
          executed := s.executed ++ (hub.runs.drop s.hub.runs.length).map fun run => (id, run) }
  | _ => none

/-- The runs of idempotent tools that have completed for a task. -/
def completedFor (s : Process ω) (id : TaskId) : List ToolRun :=
  (s.executed.filter fun p => p.1 = id && (p.2.output.isSome && s.hub.idempotent p.2.call.toolName)).map Prod.snd

end Process

/-- One process, its hub alive. -/
def process (P : Pydantic) (B : Builtins) (K : Collaborators ω) (graph : Bool) : Machine (Process ω) ProcessEvent where
  step s
    | .node e => s.nodeStep P e
    | .fail exc takesEffect => s.failStep exc takesEffect
    | .execute => s.executeStep P B K graph
    | .request request => some { s with hub := finalState ((orchestrator B K graph).run request s.hub) }

/-- No idempotent tool has completed twice for a task with the same
parameters. -/
def OncePerTask (s : Process ω) : Prop :=
  ∀ id, (s.completedFor id).Pairwise fun run run' =>
    run.call.toolName = run'.call.toolName → run.call.params ≠ run'.call.params

/-- An execution of a task begins before any has completed an idempotent
tool. -/
def FirstCompletion (s : Process ω) : ProcessEvent → Prop
  | .execute =>
    match s.node.worker with
    | .holding id _ => s.completedFor id = []
    | _ => True
  | _ => True

instance (s : Process ω) : ∀ e, Decidable (FirstCompletion s e)
  | .node _ => isTrue trivial
  | .fail .. => isTrue trivial
  | .request _ => isTrue trivial
  | .execute =>
    match hw : s.node.worker with
    | .holding id _ => decidable_of_iff (s.completedFor id = []) (by simp only [FirstCompletion, hw])
    | .off => isTrue (by simp only [FirstCompletion, hw])
    | .polling => isTrue (by simp only [FirstCompletion, hw])

section Step

variable {P : Pydantic} {B : Builtins} {K : Collaborators ω} {graph : Bool} {s s' : Process ω}

/-- The completed runs after an execution of a task. -/
theorem completedFor_append {id : TaskId} {runs : List ToolRun}
    (hexecuted : s'.executed = s.executed ++ runs.map fun run => (id, run))
    (hregistry : s'.hub.registry = s.hub.registry) (id' : TaskId) :
    s'.completedFor id' = s.completedFor id' ++
      if id = id' then runs.filter fun run => run.output.isSome && s.hub.idempotent run.call.toolName else [] := by
  simp only [Process.completedFor, ToolHub.idempotent, hexecuted, hregistry, List.filter_append, List.map_append,
    List.filter_map, List.map_map, Function.comp_def, List.map_id']
  split
  · next hid => simp [hid]
  · next hid => simp [hid]

/-- What does not execute a task leaves its completed runs. -/
theorem OncePerTask.of_executed (h : OncePerTask s) (hexecuted : s'.executed = s.executed)
    (hregistry : s'.hub.registry = s.hub.registry) : OncePerTask s' := by
  intro id
  have hcompleted : s'.completedFor id = s.completedFor id := by
    simp only [Process.completedFor, ToolHub.idempotent, hexecuted, hregistry]
  rw [hcompleted]
  exact h id

theorem nodeStep_frame {e : NodeEvent} (h : s.nodeStep P e = some s') : s'.executed = s.executed ∧ s'.hub = s.hub := by
  unfold Process.nodeStep at h
  split at h
  · cases h
  · cases h
  · split at h
    · cases h; exact ⟨rfl, rfl⟩
    · obtain ⟨node, -, rfl⟩ := Option.map_eq_some_iff.1 h; exact ⟨rfl, rfl⟩
  · obtain ⟨node, -, rfl⟩ := Option.map_eq_some_iff.1 h
    exact ⟨rfl, rfl⟩

theorem failStep_frame {exc : Exc} {takesEffect : Bool} (h : s.failStep exc takesEffect = some s') :
    s'.executed = s.executed ∧ s'.hub = s.hub := by
  unfold Process.failStep at h
  split at h <;> cases h <;> exact ⟨rfl, rfl⟩

/-- An execution runs tools for its task, none twice. -/
theorem executeStep_runs (h : s.executeStep P B K graph = some s') :
    ∃ (id : TaskId) (stage : Stage) (runs : List ToolRun), s.node.worker = .holding id stage ∧
      s'.executed = s.executed ++ runs.map (fun run => (id, run)) ∧
      (runs.map (·.call.toolName)).Nodup ∧ s'.hub.registry = s.hub.registry := by
  unfold Process.executeStep at h
  split at h
  · next id hw =>
    obtain ⟨task, -, h⟩ := Option.bind_eq_some_iff.1 h
    obtain ⟨node, -, rfl⟩ := Option.map_eq_some_iff.1 h
    obtain ⟨runs, hruns, hnames, hregistry⟩ := (run_within B K graph task.request).finalState s.hub
    refine ⟨id, .running, runs, hw, ?_, (PlannerAgent.plan_nodup B task.request).sublist hnames, hregistry⟩
    rw [hruns, List.drop_left]
  · cases h

theorem step_once (h : (process P B K graph).step s e = some s') (hc : FirstCompletion s e) (ho : OncePerTask s) :
    OncePerTask s' := by
  cases e with
  | node e =>
    obtain ⟨hexecuted, hhub⟩ := nodeStep_frame h
    exact ho.of_executed hexecuted (by rw [hhub])
  | fail exc takesEffect =>
    obtain ⟨hexecuted, hhub⟩ := failStep_frame h
    exact ho.of_executed hexecuted (by rw [hhub])
  | request request =>
    cases h
    obtain ⟨runs, -, -, hregistry⟩ := (run_within B K graph request).finalState s.hub
    exact ho.of_executed rfl hregistry
  | execute =>
    obtain ⟨id, stage, runs, hw, hexecuted, hnodup, hregistry⟩ := executeStep_runs h
    simp only [FirstCompletion, hw] at hc
    intro id'
    rw [completedFor_append hexecuted hregistry]
    split
    · next hid =>
      rw [← hid, hc, List.nil_append]
      have hdistinct : runs.Pairwise fun run run' => run.call.toolName ≠ run'.call.toolName :=
        List.pairwise_map.1 hnodup
      exact (hdistinct.filter _).imp fun hne hname => absurd hname hne
    · rw [List.append_nil]
      exact ho id'

end Step

/-- From any process that has executed nothing: if no execution of a task
begins after an idempotent tool has completed for it, then in every state that
is reached no such tool has completed twice for a task with the same
parameters. -/
theorem once_per_task (P : Pydantic) (B : Builtins) (K : Collaborators ω) (graph : Bool) (node : Node)
    (hub : ToolHub ω) (events : List ProcessEvent)
    (h : (process P B K graph).Meets FirstCompletion { node, hub } events) :
    (process P B K graph).Always OncePerTask { node, hub } events := by
  refine (process P B K graph).always_of_keeps (fun {s e s'} hc hstep ho => step_once hstep hc ho) h ?_
  intro id
  exact List.Pairwise.nil

/-! ## An email -/

def emailRequest : UnifiedRequest where
  sessionId := "s1"
  taskType := .automation
  input := "send an email"
  input_ne := by decide

/-- The language's functions on the texts of the executions of `emailRequest`. -/
def emailBuiltins : Builtins :=
  { unusedBuiltins with
    repr := fun _ => "\x7b'to': 'unknown@company.com', 'subject': 'Automated message'\x7d"
    sha1 := fun text =>
      if text = "6f1c1f0e-8a55-4c8e-9d0e-3c5a2f9b7a10:send_email:" ++
          "\x7b'to': 'unknown@company.com', 'subject': 'Automated message'\x7d" then
        "d4dd92eb5934271ba57c9ab3667f952e21225fef"
      else "9ae457930271aa5a4d98f7608dc6304cd3a6fc3f" }

/-- Collaborators that find and keep nothing, with the trace ids to draw. -/
def emailCollaborators : Collaborators (List String) where
  retrieve _ := return []
  review answer _ _ := return (answer, 0)
  generate prompt _ _ := return (prompt, false)
  readShort _ _ _ := return []
  readLong _ _ _ := return []
  writeShort _ _ _ content := return { memoryType := .short, content }
  writeLong _ _ content _ := return { memoryType := .long, content }
  assemble data := return data.task
  buildContext layers := return layers.taskContext
  loadSkills := return []
  newTraceId := fun ids => .ok (ids.headD "") ids.tail

/-- What the planner hands to the email tool. -/
def emailParams : Params :=
  Dict.empty.update [(.str "to", .str "unknown@company.com"), (.str "subject", .str "Automated message")]

def mailerHub : ToolHub (List String) :=
  ToolHub.fresh (Dict.empty.set "send_email" sendEmailTool) (pure "event-1") (pure .none)
    ["6f1c1f0e-8a55-4c8e-9d0e-3c5a2f9b7a10", "b2d94c7e-51f3-4e0b-a6c8-90d7f4e13c2b"]

def mailerProcess : Process (List String) where
  node := .init .memory
  hub := mailerHub

/-- The process starts, and the task is submitted. -/
def emailSubmitted : List ProcessEvent :=
  .node (.start noFault []) :: (submitEvents "t" emailRequest .none .none).map .node

/-- The worker takes a task and executes it. -/
def executionEvents : List ProcessEvent :=
  [.node .dequeue, .node .work, .node .work, .node .work, .execute, .node .work, .node .work]

/-- A restart of the task manager enqueues the waiting task again. -/
def reenqueued : List ProcessEvent := [.node .stop, .node (.start noFault [.ofRequest "t" emailRequest])]

/-- The gateway is down as long as a trace id is left to draw. -/
def downEmailTool : Tool (List String) :=
  { (sendEmailTool : Tool (List String)) with
    run := fun params => do
      if (← get).isEmpty then sendEmailTool.run params else throw ⟨.osError, "gateway is down"⟩ }

/-- `mailerHub` with a gateway that is down at the first execution. -/
def downHub : ToolHub (List String) := { mailerHub with registry := Dict.empty.set "send_email" downEmailTool }

/-- A task that is executed twice: the email fails the first time, and is sent once. -/
theorem once_per_task_email :
    (∃ s, (process .strict emailBuiltins emailCollaborators false).run { mailerProcess with hub := downHub }
        (emailSubmitted ++ reenqueued ++ executionEvents ++ executionEvents) = some s ∧
      s.executed.map (fun run => (run.1, run.2.call.toolName, run.2.output.isSome)) =
        [("t", "send_email", false), ("t", "send_email", true)]) ∧
      (process .strict emailBuiltins emailCollaborators false).Always OncePerTask { mailerProcess with hub := downHub }
        (emailSubmitted ++ reenqueued ++ executionEvents ++ executionEvents) := by
  have hruns : ((process .strict emailBuiltins emailCollaborators false).run { mailerProcess with hub := downHub }
      (emailSubmitted ++ reenqueued ++ executionEvents ++ executionEvents)).map (fun s =>
        s.executed.map fun run => (run.1, run.2.call.toolName, run.2.output.isSome)) =
      some [("t", "send_email", false), ("t", "send_email", true)] := by
    decide +kernel
  exact ⟨Option.map_eq_some_iff.1 hruns, once_per_task .strict emailBuiltins emailCollaborators false (.init .memory) downHub
    (emailSubmitted ++ reenqueued ++ executionEvents ++ executionEvents) (by decide +kernel)⟩

/-- The task is executed twice, under two keys, and the email is sent twice. -/
theorem email_sent_twice :
    ∃ s, (process .strict emailBuiltins emailCollaborators false).run mailerProcess
        (emailSubmitted ++ reenqueued ++ executionEvents ++ executionEvents) = some s ∧
      (s.completedFor "t").map (·.call.idempotencyKey) =
        ["d4dd92eb5934271ba57c9ab3667f952e21225fef", "9ae457930271aa5a4d98f7608dc6304cd3a6fc3f"] ∧
      ¬ OncePerTask s := by
  have hrun : ((process .strict emailBuiltins emailCollaborators false).run mailerProcess
      (emailSubmitted ++ reenqueued ++ executionEvents ++ executionEvents)).map (fun s =>
        ((s.completedFor "t").map (·.call.idempotencyKey), (s.completedFor "t").map fun run =>
          (run.call.toolName, run.call.params))) = some
      (["d4dd92eb5934271ba57c9ab3667f952e21225fef", "9ae457930271aa5a4d98f7608dc6304cd3a6fc3f"],
        [("send_email", emailParams), ("send_email", emailParams)]) := by
    decide +kernel
  obtain ⟨s, hs, heq⟩ := Option.map_eq_some_iff.1 hrun
  obtain ⟨hkeys, hcalls⟩ := Prod.mk.inj heq
  refine ⟨s, hs, hkeys, fun ho => ?_⟩
  obtain ⟨run, rest, hruns, hrun, hrest⟩ := List.map_eq_cons_iff.1 hcalls
  obtain ⟨run', rest', hrest', hrun', -⟩ := List.map_eq_cons_iff.1 hrest
  have honce := ho "t"
  rw [hruns, hrest'] at honce
  have hsame := Prod.mk.inj (hrun.trans hrun'.symm)
  exact (List.pairwise_cons.1 honce).1 run' (List.mem_cons_self ..) hsame.1 hsame.2

end Ochestrate
