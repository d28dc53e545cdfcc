import Ochestrate.Framework.Observer
import Ochestrate.Workers.Faults

/-!
# One process, step by step

The coroutines of a process interleave at their suspension points, and several
processes interleave at their calls to the shared stores. A `Node` is a process
in the middle of its coroutines: `submits` holds the submissions in progress,
`worker` the position of the worker loop, `streams` the status streams. Its
machine `node` takes one call to a store, one call of the orchestrator or one
publication at a time, so its runs include the interleavings of both kinds.

Between `_tasks[task_id] = envelope` and the return of `create` there is no
suspension point, so `submit` begins with both. The statements that settle an
envelope change nothing that another coroutine could see in between, and are
one step with the call of the orchestrator.

`run_submit` and `run_workerIteration` connect the steps to the methods: a
submission or an iteration that nothing interrupts is the run of its steps.
-/

namespace Ochestrate

/-- A submission in progress. -/
inductive Submission | created | enqueued
  deriving DecidableEq, Repr

/-- How far the worker is with a task. -/
inductive Stage
  | taken
  | marked
  | started
  | running
  | finished (outcome : Except Exc UnifiedResponse)
  | persisted

/-- The position of the worker loop. -/
inductive Worker
  | off
  | polling
  | holding (id : TaskId) (stage : Stage)

/-- A status stream and what it has yielded. -/
structure Stream where
  taskId : TaskId
  phase : Phase := .waiting
  delivered : List TaskStatusResponse := []

/-- The coroutines of a process, and its history: `submitted` the requests by
id, `enqueued` the ids in the order of `enqueue`, `accepted` the ids whose
`submit` returned. -/
structure Control where
  worker : Worker := .off
  submits : Dict TaskId Submission := .empty
  streams : Dict SubId Stream := .empty
  submitted : Dict TaskId UnifiedRequest := .empty
  enqueued : List TaskId := []
  accepted : List TaskId := []

structure Node extends System, Control

/-- The worker's stage with a task, if it holds this task. -/
def Worker.stage (id : TaskId) : Worker → Option Stage
  | .holding id' stage => if id' = id then some stage else none
  | _ => none

inductive NodeEvent
  | submit (id : TaskId) (request : UnifiedRequest) (create : Fault Exc)
  | enqueue (id : TaskId) (enq : Fault Exc)
  | publish (id : TaskId)
  | idle
  | dequeue
  | work
  | run (outcome : Except Exc UnifiedResponse)
  | subscribe (k : SubId) (id : TaskId)
  | next (k : SubId)
  | resume (k : SubId)
  | close (k : SubId)
  | start (faults : TaskId → Fault Exc) (records : List TaskRecord)
  | stop
  | crash (keepQueue : Bool)

/-- An envelope once `orchestrator.run` ended. -/
def TaskEnvelope.settle (task : TaskEnvelope) : Except Exc UnifiedResponse → TaskEnvelope
  | .ok result => { task with result := some result, status := .completed }
  | .error exc => { task with status := .failed, error := some exc.message }

/-- How the call of `create` goes in this event. -/
def NodeEvent.createFault : NodeEvent → Fault Exc
  | .submit _ _ create => create
  | _ => .none

/-- The events of the status streams. -/
def NodeEvent.ofStream : NodeEvent → Bool
  | .subscribe .. | .next _ | .resume _ | .close _ => true
  | _ => false

namespace System

/-- What the worker writes to an envelope once `orchestrator.run` ended. -/
def settle (s : System) (id : TaskId) : Except Exc UnifiedResponse → System
  | .ok result =>
    (s.modifyTask id ({ · with result := some result })).modifyTask id ({ · with status := .completed })
  | .error exc =>
    (s.modifyTask id ({ · with status := .failed })).modifyTask id ({ · with error := some exc.message })

/-- What the worker writes to the row once `orchestrator.run` ended. -/
def persistOutcome (s : System) (id : TaskId) : Except Exc UnifiedResponse → System
  | .ok result => s.persist id .completed (some result.traceId) (some result.modelDump)
  | .error exc => s.persist id .failed none none (some exc.message)

/-- The state after `_publish_status`, if it returns. -/
def published (P : Pydantic) (s : System) (id : TaskId) : Option System :=
  match publishStatus P id s with
  | .ok _ s' => some s'
  | .error _ _ => none

end System

namespace Node

variable (P : Pydantic)

/-- The worker advances, with the process in a new state. -/
def move (s : Node) (sys : System) (worker : Worker) : Node := { s with toSystem := sys, worker := worker }

/-- An id that `uuid.uuid4` can draw: it occurs nowhere yet. -/
def Fresh (s : Node) (id : TaskId) : Prop :=
  s.submitted.get? id = none ∧ s.submits.get? id = none ∧ s.tasks.get? id = none ∧ s.repo.get id = none ∧
    id ∉ s.queue ∧ (s.worker.stage id).isNone = true ∧ ∀ stream ∈ s.streams.values, stream.taskId ≠ id

instance (s : Node) (id : TaskId) : Decidable (s.Fresh id) :=
  inferInstanceAs (Decidable (_ ∧ _ ∧ _ ∧ _ ∧ _ ∧ _ ∧ _))

/-- `submit` up to the return of `create`. -/
def submitStep (s : Node) (id : TaskId) (request : UnifiedRequest) (create : Fault Exc) : Node :=
  let submitted := s.submitted.set id request
  match createRecord create (.ofRequest id request) (s.setTask { taskId := id, request := request }) with
  | .ok _ sys => { s with toSystem := sys, submitted := submitted, submits := s.submits.set id .created }
  | .error _ sys => { s with toSystem := sys, submitted := submitted }

/-- The call of `enqueue` in `submit`. -/
def enqueueStep (s : Node) (id : TaskId) (enq : Fault Exc) : Node :=
  match Ochestrate.enqueue enq id s.toSystem with
  | .ok _ sys =>
    { s with toSystem := sys, submits := s.submits.set id .enqueued, enqueued := s.enqueued ++ [id] }
  | .error _ sys => { s with toSystem := sys, submits := s.submits.erase id }

/-- The next statement of the worker, up to its next call. -/
def work (s : Node) : Option Node :=
  match s.worker with
  | .holding id .taken =>
    match s.tasks.get? id with
    | none => some (s.move s.toSystem .polling)
    | some _ => some (s.move (s.modifyTask id ({ · with status := .running })) (.holding id .marked))
  | .holding id .marked => some (s.move (s.persist id .running) (.holding id .started))
  | .holding id .started => (s.published P id).map (s.move · (.holding id .running))
  | .holding id (.finished outcome) => some (s.move (s.persistOutcome id outcome) (.holding id .persisted))
  | .holding id .persisted => (s.published P id).map (s.move · .polling)
  | _ => none

/-- The call of `orchestrator.run`, with the statements that settle the
envelope. -/
def runStep (s : Node) (outcome : Except Exc UnifiedResponse) : Option Node :=
  match s.worker with
  | .holding id .running =>
    (s.tasks.get? id).map fun envelope =>
      s.move ((s.logCall id envelope.request).settle id outcome) (.holding id (.finished outcome))
  | _ => none

/-- `subscribe_status` up to its loop. Reading the snapshot from a malformed
row raises with the queue registered. -/
def subscribeStep (s : Node) (k : SubId) (id : TaskId) : Node :=
  match s.getStatus P id with
  | .ok snapshot =>
    { s with toSystem := s.subscribe k id snapshot, streams := s.streams.set k { taskId := id } }
  | .error _ =>
    { s with
      subscribers := s.subscribers.set id ((s.subscribers.get? id).getD [] ++ [k])
      streams := s.streams.set k { taskId := id, phase := .raised } }

/-- A stream gets the next snapshot from its queue and yields it. -/
def nextStep (s : Node) (k : SubId) : Option Node :=
  match s.streams.get? k, s.queues.get? k with
  | some stream, some (snapshot :: rest) =>
    if stream.phase = .waiting then
      some { s with
        queues := s.queues.set k rest
        streams := s.streams.set k
          { stream with phase := .yielded, delivered := stream.delivered ++ [snapshot] } }
    else none
  | _, _ => none

/-- A stream continues after a `yield`: it ends with a terminal snapshot. -/
def resumeStep (s : Node) (k : SubId) : Option Node :=
  match s.streams.get? k with
  | some stream =>
    match stream.phase, stream.delivered.getLast? with
    | .yielded, some current =>
      if current.status.terminal then
        some { s with
          toSystem := s.unsubscribe k stream.taskId
          streams := s.streams.set k { stream with phase := .finished } }
      else some { s with streams := s.streams.set k { stream with phase := .waiting } }
    | _, _ => none
  | none => none

/-- A stream is closed or cancelled where it is suspended. -/
def closeStep (s : Node) (k : SubId) : Option Node :=
  match s.streams.get? k with
  | some stream =>
    if stream.phase = .waiting ∨ stream.phase = .yielded then
      some { s with
        toSystem := s.unsubscribe k stream.taskId
        streams := s.streams.set k { stream with phase := .closed } }
    else none
  | none => none

/-- The process dies. A queue in Redis and a repository in the database outlive
it. -/
def crashStep (s : Node) (keepQueue : Bool) : Node :=
  { s with
    toTaskManager := {}
    queue := if keepQueue then s.queue else []
    repo := match s.repo.mode with
      | .memory => .empty .memory
      | .database => s.repo
    worker := .off
    submits := .empty
    streams := .empty }

end Node

/-- The machine of one process. -/
def node (P : Pydantic) : Machine Node NodeEvent where
  step s
    | .submit id request create => if s.Fresh id then some (s.submitStep id request create) else none
    | .enqueue id enq => if s.submits.get? id = some .created then some (s.enqueueStep id enq) else none
    | .publish id =>
      if s.submits.get? id = some .enqueued then
        (s.published P id).map fun sys =>
          { s with toSystem := sys, submits := s.submits.erase id, accepted := s.accepted ++ [id] }
      else none
    | .idle => match s.worker with
      | .polling => some s
      | _ => none
    | .dequeue => match s.worker, s.queue with
      | .polling, id :: _ => some (s.move s.pop (.holding id .taken))
      | _, _ => none
    | .work => s.work P
    | .run outcome => s.runStep outcome
    | .subscribe k id => if s.streams.get? k = none then some (s.subscribeStep P k id) else none
    | .next k => s.nextStep k
    | .resume k => s.resumeStep k
    | .close k => s.closeStep k
    | .start faults records => match s.workerTask, s.worker with
      | true, _ => some s
      | false, .off =>
        if s.repo.ListsRecoverable records then some (s.move (s.toSystem.start P faults records) .polling)
        else none
      | false, _ => none
    | .stop => match s.worker with
      | .off | .polling | .holding _ .taken => some (s.move s.toSystem.stop .off)
      | _ => none
    | .crash keepQueue => some (s.crashStep keepQueue)

/-! ## The methods as runs -/

/-- The steps of a submission that nothing interrupts. -/
def submitEvents (id : TaskId) (request : UnifiedRequest) (create enq : Fault Exc) : List NodeEvent :=
  .submit id request create ::
    if create.raises then [] else .enqueue id enq :: if enq.raises then [] else [.publish id]

/-- The steps of an iteration that takes a task of the process and meets no
fault. -/
def iterationEvents (outcome : Except Exc UnifiedResponse) : List NodeEvent :=
  [.dequeue, .work, .work, .work, .run outcome, .work, .work]

variable (P : Pydantic)

theorem published_eq {s : System} {id : TaskId} {task : TaskEnvelope} (h : s.tasks.get? id = some task) :
    s.published P id = some (s.broadcast id task.snapshot) := by
  simp only [System.published, publishStatus_eq P h]

theorem Node.submitStep_eq {s : Node} {id : TaskId} (h : s.Fresh id) (request : UnifiedRequest)
    (create : Fault Exc) :
    ∃ repo', s.repo.create (.ofRequest id request) = .ok repo' ∧
      s.submitStep id request create = { s with
        tasks := s.tasks.set id { taskId := id, request := request }
        repo := if create.takesEffect then repo' else s.repo
        submits := if create.raises then s.submits else s.submits.set id .created
        submitted := s.submitted.set id request } := by
  have hnone : s.repo.get (TaskRecord.ofRequest id request).taskId = none := h.2.2.2.1
  obtain ⟨repo', hrepo⟩ := s.repo.create_of_get_none hnone
  refine ⟨repo', hrepo, ?_⟩
  have hcreate : createRecord create (.ofRequest id request) (s.setTask { taskId := id, request := request }) =
      faulty create (fun s => { s with repo := repo' }) (s.setTask { taskId := id, request := request }) := by
    have hrepo' : (s.setTask { taskId := id, request := request }).repo.create (.ofRequest id request) =
      .ok repo' := hrepo
    simp only [createRecord, hrepo']
  rw [submitStep, hcreate]
  cases create <;> rfl

theorem publish_step {s : Node} {id : TaskId} {task : TaskEnvelope} (hs : s.submits.get? id = some .enqueued)
    (ht : s.tasks.get? id = some task) :
    (node P).step s (.publish id) = some
      { s with
        toSystem := s.broadcast id task.snapshot
        submits := s.submits.erase id
        accepted := s.accepted ++ [id] } := by
  simp only [node, hs, ↓reduceIte, published_eq P ht, Option.map_some]

/-- `submit` is the run of its steps. -/
theorem run_submit {s : Node} {id : TaskId} (h : s.Fresh id) (request : UnifiedRequest) (create enq : Fault Exc) :
    ∃ s', (node P).run s (submitEvents id request create enq) = some s' ∧
      s'.toSystem = finalState (submit P id request create enq s.toSystem) := by
  have hnone : s.repo.get (TaskRecord.ofRequest id request).taskId = none := h.2.2.2.1
  obtain ⟨repo', hrepo⟩ := s.repo.create_of_get_none hnone
  have hset : (s.setTask { taskId := id, request := request }).tasks.get? id =
      some { taskId := id, request := request } := Dict.get?_set_self ..
  have hrepo' : (s.setTask { taskId := id, request := request }).repo.create (.ofRequest id request) =
    .ok repo' := hrepo
  unfold submit
  rw [modify_bind]
  generalize hs₁ : s.setTask { taskId := id, request := request } = s₁ at hset hrepo' ⊢
  have hstep : (node P).step s (.submit id request create) = some (s.submitStep id request create) := if_pos h
  rw [submitEvents, Machine.run_cons_some _ hstep, Node.submitStep, hs₁]
  cases create with
  | before exc => exact ⟨_, rfl, by simp only [createRecord, hrepo', faulty, bind, EStateM.bind, finalState_error]⟩
  | after exc => exact ⟨_, rfl, by simp only [createRecord, hrepo', faulty, bind, EStateM.bind, finalState_error]⟩
  | none =>
    have hc : createRecord .none (.ofRequest id request) s₁ = .ok ⟨⟩ { s₁ with repo := repo' } := by
      simp only [createRecord, hrepo', faulty]
    rw [bind_ok hc, hc]
    generalize hs₂ : ({ s₁ with repo := repo' } : System) = s₂
    have htask : s₂.tasks.get? id = some { taskId := id, request := request } := by rw [← hs₂]; exact hset
    simp only [Fault.raises, Bool.false_eq_true, ↓reduceIte]
    rw [Machine.run_cons_some _ (if_pos (Dict.get?_set_self ..)), Node.enqueueStep]
    cases enq with
    | before exc => exact ⟨_, rfl, rfl⟩
    | after exc => exact ⟨_, rfl, rfl⟩
    | none =>
      have he : enqueue .none id s₂ = .ok ⟨⟩ (s₂.push id) := rfl
      have hp : (s₂.push id).tasks.get? id = some { taskId := id, request := request } := htask
      rw [bind_ok he, bind_ok (publishStatus_eq P hp)]
      simp only [Bool.false_eq_true, ↓reduceIte, he]
      rw [Machine.run_cons_some _ (publish_step P (Dict.get?_set_self ..) hp)]
      exact ⟨_, rfl, rfl⟩

theorem System.get?_settle (s : System) (id id' : TaskId) (outcome : Except Exc UnifiedResponse) :
    (s.settle id outcome).tasks.get? id' =
      if id' = id then (s.tasks.get? id).map (·.settle outcome) else s.tasks.get? id' := by
  cases outcome <;> simp only [settle, get?_modifyTask, ↓reduceIte, Option.map_map] <;> split <;> rfl

/-- The process up to the call of the orchestrator in an execution. -/
def System.begun (s : System) (id : TaskId) (envelope : TaskEnvelope) : System :=
  ((s.modifyTask id ({ · with status := .running })).persist id .running).broadcast id
    (TaskEnvelope.snapshot { envelope with status := .running })

/-- The process after the call of the orchestrator in an execution. -/
def System.ended (s : System) (id : TaskId) (task : TaskEnvelope) (outcome : Except Exc UnifiedResponse) :
    System :=
  (((s.logCall id task.request).settle id outcome).persistOutcome id outcome).broadcast id
    (task.settle outcome).snapshot

theorem System.get?_begun {s : System} {id : TaskId} {envelope : TaskEnvelope}
    (h : s.tasks.get? id = some envelope) :
    (s.begun id envelope).tasks.get? id = some { envelope with status := .running } := by
  simp only [begun, broadcast, persist, get?_modifyTask, ↓reduceIte, h, Option.map_some]

theorem System.get?_settled {s : System} {id : TaskId} {task : TaskEnvelope} (h : s.tasks.get? id = some task)
    (request : UnifiedRequest) (outcome : Except Exc UnifiedResponse) :
    (((s.logCall id request).settle id outcome).persistOutcome id outcome).tasks.get? id =
      some (task.settle outcome) := by
  have hlog : (s.logCall id request).tasks.get? id = some task := h
  cases outcome <;> simp only [persistOutcome, persist, get?_settle, ↓reduceIte, hlog, Option.map_some]

/-- The execution of a task in memory when no call raises. -/
theorem executeTask_eq {s : System} {id : TaskId} {envelope : TaskEnvelope} (h : s.tasks.get? id = some envelope)
    (outcome : Except Exc UnifiedResponse) :
    executeTask P { run := outcome } id envelope s =
      .ok ⟨⟩ ((s.begun id envelope).ended id { envelope with status := .running } outcome) := by
  have hbegun := System.get?_begun h
  have hsettled := System.get?_settled hbegun envelope.request outcome
  have hbegin : executeTask P { run := outcome } id envelope s =
      tryCatch (completeTask P { run := outcome } id envelope.request) (failTask P { run := outcome } id)
        (s.begun id envelope) := by
    unfold executeTask
    rw [modify_bind, bind_ok (updateStatus_returns rfl ..)]
    exact bind_ok (publishStatus_eq P (by simpa [System.begun, System.broadcast] using hbegun)) _
  rw [hbegin]
  cases outcome with
  | ok result =>
    refine tryCatch_ok ?_ _
    unfold completeTask
    rw [bind_ok (rfl : orchestratorRun id envelope.request (.ok result) (s.begun id envelope) = .ok result _),
      modify_bind, modify_bind, bind_ok (updateStatus_returns rfl ..)]
    exact publishStatus_eq P hsettled
  | error exc =>
    have hraise : completeTask P { run := .error exc } id envelope.request (s.begun id envelope) =
        .error exc ((s.begun id envelope).logCall id envelope.request) := by
      unfold completeTask
      exact bind_error (rfl : orchestratorRun id envelope.request (.error exc) _ = .error exc _) _
    rw [tryCatch_error hraise]
    unfold failTask
    rw [modify_bind, modify_bind, bind_ok (updateStatus_returns rfl ..)]
    exact publishStatus_eq P hsettled

/-- The steps of an execution up to the call of the orchestrator. -/
theorem run_begun {s : Node} {id : TaskId} {envelope : TaskEnvelope} (hw : s.worker = .holding id .taken)
    (ht : s.tasks.get? id = some envelope) :
    (node P).run s [.work, .work, .work] = some (s.move (s.begun id envelope) (.holding id .running)) := by
  have hbegun := System.get?_begun ht
  simp only [System.begun, System.broadcast] at hbegun
  have hpublish := published_eq P (s := (s.modifyTask id ({ · with status := .running })).persist id .running) hbegun
  simp only [Machine.run_cons, node, Node.work, hw, ht, Node.move, Option.bind_some, Machine.run_nil, hpublish,
    Option.map_some]
  rfl

/-- The steps of an execution from the call of the orchestrator on. -/
theorem run_ended {s : Node} {id : TaskId} {task : TaskEnvelope} (hw : s.worker = .holding id .running)
    (ht : s.tasks.get? id = some task) (outcome : Except Exc UnifiedResponse) :
    (node P).run s [.run outcome, .work, .work] = some (s.move (s.ended id task outcome) .polling) := by
  have hpublish := published_eq P (System.get?_settled ht task.request outcome)
  simp only [Machine.run_cons, node, Node.runStep, Node.work, hw, ht, Node.move, Option.map_some,
    Option.bind_some, Machine.run_nil, hpublish]
  rfl

/-- An iteration of the worker loop is the run of its steps. -/
theorem run_workerIteration {s : Node} {id : TaskId} {queue : List TaskId} {envelope : TaskEnvelope}
    (hw : s.worker = .polling) (hq : s.queue = id :: queue) (ht : s.tasks.get? id = some envelope)
    (outcome : Except Exc UnifiedResponse) :
    ∃ s', (node P).run s (iterationEvents outcome) = some s' ∧ s'.worker = .polling ∧
      s'.toSystem = finalState (workerIteration P { run := outcome } s.toSystem) := by
  have htaken : Turn.taken { run := outcome } s.toSystem = some id := by simp [Turn.taken, hq, ht]
  obtain ⟨envelope', henv, hiter⟩ := workerIteration_taken P htaken
  rw [ht, Option.some.injEq] at henv
  rw [hiter, ← henv, executeTask_eq P (s := s.pop) ht, finalState_ok]
  have hdequeue : (node P).step s .dequeue = some (s.move s.pop (.holding id .taken)) := by
    simp only [node, hw, hq]
  have hbegun := run_begun P (s := s.move s.pop (.holding id .taken)) rfl ht
  have hended := run_ended P (s := s.move (s.pop.begun id envelope) (.holding id .running)) rfl
    (System.get?_begun ht) outcome
  refine ⟨s.move ((s.pop.begun id envelope).ended id { envelope with status := .running } outcome) .polling,
    ?_, rfl, rfl⟩
  rw [iterationEvents, Machine.run_cons_some _ hdequeue]
  exact ((node P).run_append _ [.work, .work, .work] [.run outcome, .work, .work]).trans
    (by rw [hbegun, Option.bind_some]; exact hended)

/-! ## Inputs of the examples -/

/-- A process before its first call, over empty stores. -/
def Node.init (mode : RepoMode) : Node := { toSystem := .init mode }

def noFault : TaskId → Fault Exc := fun _ => .none

def UnifiedResponse.sample : UnifiedResponse where
  answer := "done"
  traceId := "trace"

end Ochestrate
