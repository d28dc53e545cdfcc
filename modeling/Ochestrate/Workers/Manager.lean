import Ochestrate.Storage.TaskRepo

/-!
# The task manager

`app/workers/task_worker.py` with its queue (`queue_backend.py`), statement by
statement. A `System` is one process: the attributes of its `TaskManager`, and
the queue and repository it works on. Both queue backends are first in, first
out: `enqueue` appends (`put`, `rpush`), `dequeue` takes the head (`get`,
`blpop`).

`submit`, `workerIteration`, `start` and `stop` are the methods, with the
outcome of every call to a collaborator as an argument. `_worker_loop` looks an
envelope up once and mutates it; nothing replaces the entry meanwhile, so
`modifyTask` writes to the entry.

The three critical sections of `_subscribers_lock` contain no suspension point
(`put` on an unbounded queue does not suspend), so the lock is free whenever a
coroutine reaches one: registering (`subscribe`), unregistering
(`unsubscribe`) and reading the subscribers in `publishStatus` are atomic.
-/

namespace Ochestrate

/-- A task in memory. -/
structure TaskEnvelope where
  taskId : TaskId
  request : UnifiedRequest
  status : TaskStatus := .queued
  result : Option UnifiedResponse := none
  error : Option String := none
  deriving DecidableEq

/-- `_TERMINAL_STATUSES`. -/
def TaskStatus.terminal (s : TaskStatus) : Bool := s = .completed || s = .failed

/-- The identity of a subscriber's `asyncio.Queue`. -/
abbrev SubId := Nat

/-- The attributes of a `TaskManager`; `queues` holds the contents of the
subscribers' queues. -/
structure TaskManager where
  tasks : Dict TaskId TaskEnvelope := .empty
  workerTask : Bool := false
  stopped : Bool := false
  subscribers : Dict TaskId (List SubId) := .empty
  queues : Dict SubId (List TaskStatusResponse) := .empty

/-- What several processes can share: the queue and the repository. -/
structure Store where
  queue : List TaskId
  repo : TaskRepository

/-- One process. `calls` lists the calls of `orchestrator.run`, oldest first. -/
structure System extends TaskManager, Store where
  calls : List (TaskId × UnifiedRequest) := []

/-- Statements of the task manager. -/
abbrev Script := EStateM Exc System

/-- The answer of `get_status` from memory. -/
def TaskEnvelope.snapshot (task : TaskEnvelope) : TaskStatusResponse where
  taskId := task.taskId
  status := task.status
  traceId := task.result.map (·.traceId)
  result := task.result
  error := task.error

/-- The answer of `get_status` from the repository. -/
def TaskRecord.snapshot (P : Pydantic) (r : TaskRecord) : Except Exc TaskStatusResponse :=
  match r.resultJson.filter Json.truthy with
  | none => .ok ⟨r.taskId, r.status, r.traceId, none, r.errorMessage⟩
  | some doc =>
    match P.response doc with
    | none => .error ⟨.valueError, "validation error for UnifiedResponse"⟩
    | some result => .ok ⟨r.taskId, r.status, r.traceId, some result, r.errorMessage⟩

/-- The row that `submit` creates. -/
def TaskRecord.ofRequest (id : TaskId) (request : UnifiedRequest) : TaskRecord where
  taskId := id
  tenantId := request.tenantId.getD ""
  userId := request.userId.getD ""
  sessionId := request.sessionId
  taskType := request.taskType
  status := .queued
  requestJson := some request.modelDump

namespace System

/-- `_tasks[task_id] = envelope`. -/
def setTask (s : System) (task : TaskEnvelope) : System :=
  { s with tasks := s.tasks.set task.taskId task }

/-- Mutates the envelope of a task. -/
def modifyTask (s : System) (id : TaskId) (f : TaskEnvelope → TaskEnvelope) : System :=
  match s.tasks.get? id with
  | none => s
  | some task => { s with tasks := s.tasks.set id (f task) }

theorem get?_modifyTask (s : System) (id id' : TaskId) (f : TaskEnvelope → TaskEnvelope) :
    (s.modifyTask id f).tasks.get? id' = if id' = id then (s.tasks.get? id).map f else s.tasks.get? id' := by
  unfold modifyTask
  cases h : s.tasks.get? id with
  | none =>
    by_cases hid : id' = id
    · rw [if_pos hid, hid, h, Option.map_none]
    · rw [if_neg hid]
  | some task => simp only [Dict.get?_set, Option.map_some]

/-- Appends to the queue. -/
def push (s : System) (id : TaskId) : System := { s with queue := s.queue ++ [id] }

/-- The queue after its head was taken. -/
def pop (s : System) : System := { s with queue := s.queue.tail }

/-- `update_status` of the repository. -/
def persist (s : System) (id : TaskId) (status : TaskStatus) (traceId : Option String := none)
    (resultJson : Option Json := none) (errorMessage : Option String := none) : System :=
  { s with repo := s.repo.updateStatus id status traceId resultJson errorMessage }

/-- What `get_status` answers without looking into memory. -/
def storedStatus (P : Pydantic) (s : System) (id : TaskId) : Except Exc TaskStatusResponse :=
  match s.repo.get id with
  | none => .ok { taskId := id, status := .failed, error := some "task_not_found" }
  | some record => record.snapshot P

/-- `get_status`: from memory, else from the repository. -/
def getStatus (P : Pydantic) (s : System) (id : TaskId) : Except Exc TaskStatusResponse :=
  match s.tasks.get? id with
  | some task => .ok task.snapshot
  | none => s.storedStatus P id

/-- Puts a snapshot into the queues of some subscribers. -/
def putAll (qs : Dict SubId (List TaskStatusResponse)) (subs : List SubId)
    (snapshot : TaskStatusResponse) : Dict SubId (List TaskStatusResponse) :=
  subs.foldl (fun qs k => qs.set k ((qs.get? k).getD [] ++ [snapshot])) qs

/-- Broadcasts a snapshot to the subscribers of a task. -/
def broadcast (s : System) (id : TaskId) (snapshot : TaskStatusResponse) : System :=
  { s with queues := putAll s.queues ((s.subscribers.get? id).getD []) snapshot }

/-- The first block of `subscribe_status`: registers the queue, then puts the
current snapshot into it. -/
def subscribe (s : System) (k : SubId) (id : TaskId) (snapshot : TaskStatusResponse) : System :=
  { s with
    subscribers := s.subscribers.set id ((s.subscribers.get? id).getD [] ++ [k])
    queues := s.queues.set k [snapshot] }

/-- The `finally` block of `subscribe_status`. -/
def unsubscribe (s : System) (k : SubId) (id : TaskId) : System :=
  match s.subscribers.get? id with
  | none => s
  | some subs =>
    let rest := subs.filter (· ≠ k)
    { s with subscribers := if rest = [] then s.subscribers.erase id else s.subscribers.set id rest }

/-- A call of `orchestrator.run`. -/
def logCall (s : System) (id : TaskId) (request : UnifiedRequest) : System :=
  { s with calls := s.calls ++ [(id, request)] }

end System

/-! ## The collaborators -/

/-- `task_repository.create`. -/
def createRecord (f : Fault Exc) (task : TaskRecord) : Script PUnit := fun s =>
  match s.repo.create task with
  | .ok repo => faulty f (fun s => { s with repo := repo }) s
  | .error exc =>
    match f with
    | .before exc' => .error exc' s
    | _ => .error exc s

/-- `task_repository.update_status`. -/
def updateStatus (f : Fault Exc) (id : TaskId) (status : TaskStatus) (traceId : Option String := none)
    (resultJson : Option Json := none) (errorMessage : Option String := none) : Script PUnit :=
  faulty f fun s => s.persist id status traceId resultJson errorMessage

/-- `queue_backend.enqueue`. -/
def enqueue (f : Fault Exc) (id : TaskId) : Script PUnit := faulty f fun s => s.push id

/-- How `queue_backend.dequeue` goes. -/
inductive Dequeue
  | raises (exc : Exc)
  | timesOut
  | takes
  deriving DecidableEq

/-- `queue_backend.dequeue`; an empty queue times out. -/
def dequeue (d : Dequeue) : Script (Option TaskId) := fun s =>
  match d with
  | .raises exc => .error exc s
  | .timesOut => .ok none s
  | .takes =>
    match s.queue with
    | [] => .ok none s
    | id :: _ => .ok (some id) s.pop

/-- `orchestrator.run`. -/
def orchestratorRun (id : TaskId) (request : UnifiedRequest) (outcome : Except Exc UnifiedResponse) :
    Script UnifiedResponse := fun s =>
  match outcome with
  | .ok result => .ok result (s.logCall id request)
  | .error exc => .error exc (s.logCall id request)

/-! ## The methods -/

/-- `_publish_status`. -/
def publishStatus (P : Pydantic) (id : TaskId) : Script PUnit := fun s =>
  if (s.subscribers.get? id).getD [] = [] then .ok ⟨⟩ s
  else
    match s.getStatus P id with
    | .ok snapshot => .ok ⟨⟩ (s.broadcast id snapshot)
    | .error exc => .error exc s

/-- `submit`, with the fresh id as an argument. -/
def submit (P : Pydantic) (id : TaskId) (request : UnifiedRequest) (create enq : Fault Exc) :
    Script TaskId := do
  modify (·.setTask { taskId := id, request := request })
  -- the row is written before the id is enqueued, so that a restart finds it
  createRecord create (.ofRequest id request)
  enqueue enq id
  publishStatus P id
  return id

/-- How the collaborators' calls of one iteration go. -/
structure Turn where
  dequeue : Dequeue := .takes
  running : Fault Exc := .none
  run : Except Exc UnifiedResponse
  completed : Fault Exc := .none
  failed : Fault Exc := .none

/-- The `try` block of `_worker_loop`. -/
def completeTask (P : Pydantic) (t : Turn) (id : TaskId) (request : UnifiedRequest) : Script PUnit := do
  let result ← orchestratorRun id request t.run
  modify (·.modifyTask id ({ · with result := some result }))
  modify (·.modifyTask id ({ · with status := .completed }))
  updateStatus t.completed id .completed (some result.traceId) (some result.modelDump)
  publishStatus P id

/-- The `except` block of `_worker_loop`. -/
def failTask (P : Pydantic) (t : Turn) (id : TaskId) (exc : Exc) : Script PUnit := do
  modify (·.modifyTask id ({ · with status := .failed }))
  modify (·.modifyTask id ({ · with error := some exc.message }))
  updateStatus t.failed id .failed none none (some exc.message)
  publishStatus P id

/-- What `_worker_loop` does with an envelope. Only the second half is inside
the `try`. -/
def executeTask (P : Pydantic) (t : Turn) (id : TaskId) (envelope : TaskEnvelope) : Script PUnit := do
  modify (·.modifyTask id ({ · with status := .running }))
  updateStatus t.running id .running
  publishStatus P id
  tryCatch (completeTask P t id envelope.request) (failTask P t id)

/-- One iteration of `_worker_loop`. -/
def workerIteration (P : Pydantic) (t : Turn) : Script PUnit := do
  let taskId ← tryCatch (dequeue t.dequeue) fun _ => return none
  let some id := taskId | return
  -- the envelope is looked up in this process only
  let some envelope := (← get).tasks.get? id | return
  executeTask P t id envelope

/-- The request that `_recover_pending_tasks` reads from a row: rows without a
request or with an invalid one are skipped. -/
def TaskRecord.recoveredRequest (P : Pydantic) (record : TaskRecord) : Option UnifiedRequest :=
  (record.requestJson.filter Json.truthy).bind P.request

/-- The request with which a start recovers a row, if it does. -/
def TaskRecord.recovers (P : Pydantic) (r : TaskRecord) : Option UnifiedRequest :=
  if r.status.recoverable then r.recoveredRequest P else none

/-- The body of the loop of `_recover_pending_tasks`; a failed `enqueue` is
logged. -/
def System.recover (P : Pydantic) (faults : TaskId → Fault Exc) (s : System) (record : TaskRecord) : System :=
  match record.recoveredRequest P with
  | none => s
  | some request =>
    finalState (enqueue (faults record.taskId) record.taskId
      (s.setTask { taskId := record.taskId, request := request }))

/-- `start`, with the rows that `list_recoverable_tasks` returned. -/
def System.start (P : Pydantic) (faults : TaskId → Fault Exc) (records : List TaskRecord) (s : System) : System :=
  if s.workerTask then s
  else { records.foldl (recover P faults) { s with stopped := false } with workerTask := true }

/-- `stop`, between two iterations. -/
def System.stop (s : System) : System := { s with stopped := true, workerTask := false }

/-! ## What recovery does to one task -/

variable (P : Pydantic) (faults : TaskId → Fault Exc)

namespace System

theorem recover_skip {record : TaskRecord} (h : record.recoveredRequest P = none) (s : System) :
    s.recover P faults record = s := by
  simp only [recover, h]

theorem recover_eq {record : TaskRecord} {request : UnifiedRequest}
    (h : record.recoveredRequest P = some request) (s : System) :
    s.recover P faults record =
      if (faults record.taskId).takesEffect then
        (s.setTask { taskId := record.taskId, request := request }).push record.taskId
      else s.setTask { taskId := record.taskId, request := request } := by
  simp only [recover, h, enqueue, finalState_faulty]

/-- Recovering a row concerns the task of the row only. -/
theorem recover_other {record : TaskRecord} {id : TaskId} (h : record.taskId ≠ id) (s : System) :
    (s.recover P faults record).tasks.get? id = s.tasks.get? id ∧
      (s.recover P faults record).queue.count id = s.queue.count id := by
  cases hr : record.recoveredRequest P with
  | none => rw [recover_skip P faults hr]; exact ⟨rfl, rfl⟩
  | some request =>
    rw [recover_eq P faults hr]
    split <;> simp [push, setTask, Dict.get?_set, h, h.symm, List.count_append]

/-- Recovery writes the tasks and the queue. -/
theorem recover_frame (record : TaskRecord) (s : System) :
    ∃ tasks queue, s.recover P faults record = { s with tasks := tasks, queue := queue } := by
  cases hr : record.recoveredRequest P with
  | none => exact ⟨s.tasks, s.queue, recover_skip P faults hr s⟩
  | some request =>
    rw [recover_eq P faults hr]
    split
    · exact ⟨_, _, rfl⟩
    · exact ⟨_, s.queue, rfl⟩

theorem foldl_recover_frame (records : List TaskRecord) (s : System) :
    ∃ tasks queue, records.foldl (recover P faults) s = { s with tasks := tasks, queue := queue } := by
  induction records generalizing s with
  | nil => exact ⟨s.tasks, s.queue, rfl⟩
  | cons record records ih =>
    obtain ⟨tasks, queue, h⟩ := recover_frame P faults record s
    obtain ⟨tasks', queue', h'⟩ := ih (s.recover P faults record)
    exact ⟨tasks', queue', by rw [List.foldl_cons, h', h]⟩

theorem foldl_recover_other {records : List TaskRecord} {id : TaskId}
    (h : ∀ r ∈ records, r.taskId = id → r.recoveredRequest P = none) (s : System) :
    (records.foldl (recover P faults) s).tasks.get? id = s.tasks.get? id ∧
      (records.foldl (recover P faults) s).queue.count id = s.queue.count id := by
  induction records generalizing s with
  | nil => exact ⟨rfl, rfl⟩
  | cons record records ih =>
    have hrest := ih (fun r hr => h r (List.mem_cons_of_mem _ hr)) (s.recover P faults record)
    rw [List.foldl_cons, hrest.1, hrest.2]
    by_cases hid : record.taskId = id
    · rw [recover_skip P faults (h record (List.mem_cons_self ..) hid)]
      exact ⟨rfl, rfl⟩
    · exact recover_other P faults hid s

/-- A recovered task gets a new envelope and is enqueued once. -/
theorem foldl_recover_mem {records : List TaskRecord} {record : TaskRecord} {request : UnifiedRequest}
    (hn : (records.map (·.taskId)).Nodup) (hmem : record ∈ records)
    (hreq : record.recoveredRequest P = some request) (s : System) :
    (records.foldl (recover P faults) s).tasks.get? record.taskId =
        some { taskId := record.taskId, request := request } ∧
      (records.foldl (recover P faults) s).queue.count record.taskId =
        s.queue.count record.taskId + if (faults record.taskId).takesEffect then 1 else 0 := by
  induction records generalizing s with
  | nil => cases hmem
  | cons head records ih =>
    rw [List.map_cons, List.nodup_cons] at hn
    rw [List.foldl_cons]
    rcases List.mem_cons.1 hmem with rfl | hmem
    · have hno : ∀ r ∈ records, r.taskId = record.taskId → r.recoveredRequest P = none := fun r hr hid =>
        absurd (hid ▸ List.mem_map_of_mem (f := (·.taskId)) hr) hn.1
      rw [(foldl_recover_other P faults hno _).1, (foldl_recover_other P faults hno _).2, recover_eq P faults hreq]
      split <;> simp [push, setTask, List.count_append]
    · have hne : head.taskId ≠ record.taskId := fun hid =>
        hn.1 (hid ▸ List.mem_map_of_mem (f := (·.taskId)) hmem)
      rw [(ih hn.2 hmem _).1, (ih hn.2 hmem _).2, (recover_other P faults hne s).2]
      exact ⟨rfl, rfl⟩

theorem start_eq (records : List TaskRecord) {s : System} (h : s.workerTask = false) :
    s.start P faults records =
      { records.foldl (recover P faults) { s with stopped := false } with workerTask := true } :=
  if_neg (by simp [h])

/-- A start writes the tasks, the queue and the flags. -/
theorem start_frame (records : List TaskRecord) (s : System) (h : s.workerTask = false) :
    ∃ tasks queue, s.start P faults records =
      { s with tasks := tasks, queue := queue, stopped := false, workerTask := true } := by
  obtain ⟨tasks, queue, heq⟩ := foldl_recover_frame P faults records { s with stopped := false }
  exact ⟨tasks, queue, by rw [start_eq P faults records h, heq]⟩

/-- A task whose row is recoverable gets a new envelope and is enqueued once
more, whatever the queue holds. -/
theorem start_recovers {s : System} (h : s.workerTask = false) {records : List TaskRecord}
    (hrec : s.repo.ListsRecoverable records) {id : TaskId} {request : UnifiedRequest}
    (hr : (s.repo.get id).bind (·.recovers P) = some request) :
    (s.start P faults records).tasks.get? id = some { taskId := id, request := request } ∧
      (s.start P faults records).queue.count id =
        s.queue.count id + if (faults id).takesEffect then 1 else 0 := by
  obtain ⟨r, hrow, hrecovers⟩ := Option.bind_eq_some_iff.1 hr
  obtain ⟨hstatus, hreq⟩ := Option.ite_none_right_eq_some.1 hrecovers
  have hid := s.repo.taskId_of_get hrow
  subst hid
  have hmem : r ∈ records := hrec.mem.2 (s.repo.mem_recoverableTasks.2 ⟨hrow, hstatus⟩)
  rw [start_eq P faults records h]
  exact foldl_recover_mem P faults hrec.nodup hmem hreq { s with stopped := false }

/-- A start concerns no other task. -/
theorem start_skips {s : System} (h : s.workerTask = false) {records : List TaskRecord}
    (hrec : s.repo.ListsRecoverable records) {id : TaskId} (hr : (s.repo.get id).bind (·.recovers P) = none) :
    (s.start P faults records).tasks.get? id = s.tasks.get? id ∧
      (s.start P faults records).queue.count id = s.queue.count id := by
  have hskip : ∀ r ∈ records, r.taskId = id → r.recoveredRequest P = none := fun r hmem hid => by
    obtain ⟨hget, hstatus⟩ := s.repo.mem_recoverableTasks.1 (hrec.mem.1 hmem)
    rw [hid] at hget
    rwa [hget, Option.bind_some, TaskRecord.recovers, if_pos hstatus] at hr
  rw [start_eq P faults records h]
  exact foldl_recover_other P faults hskip { s with stopped := false }

end System

end Ochestrate
