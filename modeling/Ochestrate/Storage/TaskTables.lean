import Mathlib.Data.List.Perm.Basic
import Ochestrate.Framework.Machine
import Ochestrate.Storage.AuthRepo
import Ochestrate.Storage.TaskRepo

/-!
# The two modes of the task repository

`app/storage/repositories/task_repo.py`, once over the dictionary `_mem` and
once over the table `task_queue_status`, with the types of the class: `status`
and `task_type` are any strings, the JSON fields dictionaries or `None`.

The repository of the task manager, which writes the four statuses only, is
represented by them: `Represents` is kept by every call in either mode
(`updateStatus_memory`, `updateStatus_table`, `create_memory`, `create_table`).
`modes_same_records_iff` says on which sequences of calls the two modes hold the
same records: those in which no `update_status` omits a field that is set and
every task has its request.
-/

namespace Ochestrate

/-- The fields of a record, without the types of the task manager. -/
structure TaskRow where
  taskId : TaskId
  tenantId : String
  userId : String
  sessionId : String
  taskType : String
  status : String
  traceId : Option String := none
  requestJson : Option (Dict String Json) := none
  resultJson : Option (Dict String Json) := none
  errorMessage : Option String := none
  deriving DecidableEq

/-- The arguments of `update_status` after the task id. -/
structure StatusUpdate where
  status : String
  traceId : Option String := none
  resultJson : Option (Dict String Json) := none
  errorMessage : Option String := none
  deriving DecidableEq

/-- The filter of `list_recoverable_tasks`. -/
def TaskRow.recoverable (row : TaskRow) : Bool := row.status ∈ ["queued", "running"]

/-- `_mem` -/
structure TaskMemory where
  rows : Dict TaskId TaskRow
  keyed : ∀ id row, rows.get? id = some row → row.taskId = id

/-- The rows of `task_queue_status` by their unique `task_id`, in the order of
their ids, with `created_at`. -/
structure TaskTable where
  rows : Dict TaskId (TaskRow × Time)
  keyed : ∀ id row, rows.get? id = some row → row.1.taskId = id

namespace TaskMemory

def empty : TaskMemory := ⟨.empty, fun _ _ h => nomatch h⟩

def get (mem : TaskMemory) (id : TaskId) : Option TaskRow := mem.rows.get? id

/-- Writes a record under its id. -/
def put (mem : TaskMemory) (task : TaskRow) : TaskMemory where
  rows := mem.rows.set task.taskId task
  keyed id row h := by
    rw [Dict.get?_set] at h
    split at h
    · next hid => rw [← Option.some.inj h, hid]
    · exact mem.keyed id row h

def create (mem : TaskMemory) (task : TaskRow) : TaskMemory := mem.put task

/-- The record after `update_status`: a given field is written, an omitted one
is kept. -/
def write (item : TaskRow) (update : StatusUpdate) : TaskRow :=
  { item with
    status := update.status
    traceId := update.traceId <|> item.traceId
    resultJson := update.resultJson <|> item.resultJson
    errorMessage := update.errorMessage <|> item.errorMessage }

def updateStatus (mem : TaskMemory) (id : TaskId) (update : StatusUpdate) : TaskMemory :=
  match mem.get id with
  | none => mem
  | some item => mem.put (write item update)

def listRecoverableTasks (mem : TaskMemory) : List TaskRow := mem.rows.values.filter (·.recoverable)

end TaskMemory

namespace TaskTable

def empty : TaskTable := ⟨.empty, fun _ _ h => nomatch h⟩

/-- `_to_record` of the row of a task. -/
def get (table : TaskTable) (id : TaskId) : Option TaskRow := (table.rows.get? id).map Prod.fst

/-- Writes a row under its id. -/
def put (table : TaskTable) (row : TaskRow × Time) : TaskTable where
  rows := table.rows.set row.1.taskId row
  keyed id row' h := by
    rw [Dict.get?_set] at h
    split at h
    · next hid => rw [← Option.some.inj h, hid]
    · exact table.keyed id row' h

/-- `request_json or {}` -/
def storedRequest (requestJson : Option (Dict String Json)) : Dict String Json := requestJson.getD .empty

/-- `create`; `created_at` is the server's `current_timestamp`. -/
def create (serverNow : Time) (table : TaskTable) (task : TaskRow) : Except Exc TaskTable :=
  if (table.get task.taskId).isSome then .error ⟨.integrityError, "UNIQUE constraint failed"⟩
  else .ok (table.put ({ task with requestJson := some (storedRequest task.requestJson) }, serverNow))

/-- The row after `update_status`: all four columns are written. -/
def write (row : TaskRow) (update : StatusUpdate) : TaskRow :=
  { row with
    status := update.status
    traceId := update.traceId
    resultJson := update.resultJson
    errorMessage := update.errorMessage }

def updateStatus (table : TaskTable) (id : TaskId) (update : StatusUpdate) : TaskTable :=
  match table.rows.get? id with
  | none => table
  | some row => table.put (write row.1 update, row.2)

/-- The oldest first. -/
def listRecoverableTasks (table : TaskTable) : List TaskRow :=
  ((table.rows.values.filter fun row => row.1.recoverable).mergeSort fun row row' => row.2 ≤ row'.2).map Prod.fst

end TaskTable

/-! ## What is read after a call -/

namespace TaskMemory

variable (mem : TaskMemory)

theorem get_put (task : TaskRow) (id : TaskId) :
    (mem.put task).get id = if id = task.taskId then some task else mem.get id :=
  Dict.get?_set ..

theorem get_updateStatus (id id' : TaskId) (update : StatusUpdate) :
    (mem.updateStatus id update).get id' =
      if id' = id then (mem.get id).map (write · update) else mem.get id' := by
  simp only [updateStatus]
  cases hitem : mem.get id with
  | none =>
    simp only [Option.map_none]
    split
    · next h => rw [h, hitem]
    · rfl
  | some item =>
    have hid : (write item update).taskId = id := mem.keyed id item hitem
    simp only [get_put, hid, Option.map_some]

/-- A record is recoverable if it is stored and its status is. -/
theorem mem_listRecoverableTasks {row : TaskRow} :
    row ∈ mem.listRecoverableTasks ↔ mem.get row.taskId = some row ∧ row.recoverable = true := by
  simp only [listRecoverableTasks, List.mem_filter, Dict.mem_values]
  constructor
  · rintro ⟨⟨id, hid⟩, hr⟩
    exact ⟨by rw [mem.keyed id row hid]; exact hid, hr⟩
  · rintro ⟨hget, hr⟩
    exact ⟨⟨_, hget⟩, hr⟩

end TaskMemory

namespace TaskTable

variable (table : TaskTable)

theorem get_put (row : TaskRow × Time) (id : TaskId) :
    (table.put row).get id = if id = row.1.taskId then some row.1 else table.get id := by
  unfold get put
  rw [Dict.get?_set]
  split <;> rfl

theorem get_updateStatus (id id' : TaskId) (update : StatusUpdate) :
    (table.updateStatus id update).get id' =
      if id' = id then (table.get id).map (write · update) else table.get id' := by
  simp only [updateStatus]
  cases hrow : table.rows.get? id with
  | none =>
    have hnone : table.get id = none := by rw [get, hrow, Option.map_none]
    simp only [hnone, Option.map_none]
    split
    · next h => rw [h, hnone]
    · rfl
  | some row =>
    have hid : (write row.1 update).taskId = id := table.keyed id row hrow
    have hsome : table.get id = some row.1 := by rw [get, hrow, Option.map_some]
    simp only [get_put, hid, hsome, Option.map_some]

theorem mem_listRecoverableTasks {row : TaskRow} :
    row ∈ table.listRecoverableTasks ↔ table.get row.taskId = some row ∧ row.recoverable = true := by
  simp only [listRecoverableTasks, List.mem_map, List.mem_mergeSort, List.mem_filter, Dict.mem_values, get,
    Option.map_eq_some_iff]
  constructor
  · rintro ⟨row', ⟨⟨id, hid⟩, hr⟩, rfl⟩
    exact ⟨⟨row', by rw [table.keyed id row' hid]; exact hid, rfl⟩, hr⟩
  · rintro ⟨⟨row', hrow', rfl⟩, hr⟩
    exact ⟨row', ⟨⟨_, hrow'⟩, hr⟩, rfl⟩

end TaskTable

/-! ## The repository of the task manager -/

def TaskStatus.value : TaskStatus → String
  | .queued => "queued"
  | .running => "running"
  | .completed => "completed"
  | .failed => "failed"

/-- The record of the task manager that a row holds. -/
def TaskRow.toRecord (row : TaskRow) (taskType : TaskType) (status : TaskStatus) : TaskRecord where
  taskId := row.taskId
  tenantId := row.tenantId
  userId := row.userId
  sessionId := row.sessionId
  taskType
  status
  traceId := row.traceId
  requestJson := row.requestJson.map .ofDict
  resultJson := row.resultJson.map .ofDict
  errorMessage := row.errorMessage

structure Represents (row : TaskRow) (r : TaskRecord) : Prop where
  taskType : row.taskType = r.taskType.value
  status : row.status = r.status.value
  record : r = row.toRecord r.taskType r.status

/-- The stores represent each other task by task. -/
def RepresentsAll (get : TaskId → Option TaskRow) (repo : TaskRepository) : Prop :=
  ∀ id, Option.Rel Represents (get id) (repo.get id)

/-- The update as the task manager makes it. -/
def StatusUpdate.apply (update : StatusUpdate) (repo : TaskRepository) (id : TaskId) (status : TaskStatus) :
    TaskRepository :=
  repo.updateStatus id status update.traceId (update.resultJson.map .ofDict) update.errorMessage

namespace Represents

variable {row : TaskRow} {r : TaskRecord}

theorem recoverable (h : Represents row r) : row.recoverable = r.status.recoverable := by
  unfold TaskRow.recoverable
  rw [h.status]
  cases r.status <;> decide

theorem write_memory (h : Represents row r) {update : StatusUpdate} {status : TaskStatus}
    (hstatus : update.status = status.value) :
    Represents (TaskMemory.write row update)
      (r.updateStatus .memory status update.traceId (update.resultJson.map .ofDict) update.errorMessage) := by
  refine ⟨h.taskType, hstatus, ?_⟩
  rw [h.record]
  simp only [TaskRecord.updateStatus, TaskRow.toRecord, TaskMemory.write]
  cases update.resultJson <;> rfl

theorem write_table (h : Represents row r) {update : StatusUpdate} {status : TaskStatus}
    (hstatus : update.status = status.value) :
    Represents (TaskTable.write row update)
      (r.updateStatus .database status update.traceId (update.resultJson.map .ofDict) update.errorMessage) := by
  refine ⟨h.taskType, hstatus, ?_⟩
  rw [h.record]
  rfl

theorem stored (h : Represents row r) :
    Represents { row with requestJson := some (TaskTable.storedRequest row.requestJson) }
      { r with requestJson := some ((r.requestJson.filter Json.truthy).getD (.obj [])) } := by
  refine ⟨h.taskType, h.status, ?_⟩
  rw [h.record]
  simp only [TaskRow.toRecord, TaskTable.storedRequest]
  obtain _ | ⟨fields, hfields⟩ := row.requestJson
  · rfl
  · cases fields <;> rfl

end Represents

theorem rel_ite {α β : Type} {R : α → β → Prop} {p : Prop} [Decidable p] {a a' : Option α} {b b' : Option β}
    (h : Option.Rel R a b) (h' : Option.Rel R a' b') :
    Option.Rel R (if p then a else a') (if p then b else b') := by
  split
  · exact h
  · exact h'

theorem rel_map {α β α' β' : Type} {R : α → β → Prop} {R' : α' → β' → Prop} {f : α → α'} {g : β → β'}
    (hfg : ∀ a b, R a b → R' (f a) (g b)) {a : Option α} {b : Option β} (h : Option.Rel R a b) :
    Option.Rel R' (a.map f) (b.map g) := by
  cases h with
  | none => exact .none
  | some h => exact .some (hfg _ _ h)

theorem isSome_eq {α β : Type} {R : α → β → Prop} {a : Option α} {b : Option β} (h : Option.Rel R a b) :
    b.isSome = a.isSome := by
  cases h <;> rfl

section Refinement

variable {mem : TaskMemory} {table : TaskTable} {repo : TaskRepository}

theorem updateStatus_memory (hmode : repo.mode = .memory) (h : RepresentsAll mem.get repo) (id : TaskId)
    {update : StatusUpdate} {status : TaskStatus} (hstatus : update.status = status.value) :
    RepresentsAll (mem.updateStatus id update).get (update.apply repo id status) := by
  intro id'
  rw [TaskMemory.get_updateStatus, StatusUpdate.apply, TaskRepository.get_updateStatus, hmode]
  exact rel_ite (rel_map (fun _ _ hr => hr.write_memory hstatus) (h id)) (h id')

theorem updateStatus_table (hmode : repo.mode = .database) (h : RepresentsAll table.get repo) (id : TaskId)
    {update : StatusUpdate} {status : TaskStatus} (hstatus : update.status = status.value) :
    RepresentsAll (table.updateStatus id update).get (update.apply repo id status) := by
  intro id'
  rw [TaskTable.get_updateStatus, StatusUpdate.apply, TaskRepository.get_updateStatus, hmode]
  exact rel_ite (rel_map (fun _ _ hr => hr.write_table hstatus) (h id)) (h id')

theorem create_memory (hmode : repo.mode = .memory) (h : RepresentsAll mem.get repo) {task : TaskRow} {r : TaskRecord}
    (htask : Represents task r) :
    ∃ repo', repo.create r = .ok repo' ∧ RepresentsAll (mem.create task).get repo' := by
  refine ⟨repo.put r, by rw [TaskRepository.create, hmode], fun id => ?_⟩
  have hid : r.taskId = task.taskId := by rw [htask.record]; rfl
  rw [TaskMemory.create, TaskMemory.get_put, TaskRepository.get_put, hid]
  exact rel_ite (.some htask) (h id)

/-- Both create the task or reject its id. -/
theorem create_table (hmode : repo.mode = .database) (h : RepresentsAll table.get repo) {task : TaskRow}
    {r : TaskRecord} (htask : Represents task r) (serverNow : Time) :
    match table.create serverNow task, repo.create r with
    | .ok table', .ok repo' => RepresentsAll table'.get repo'
    | .error exc, .error exc' => exc = exc'
    | _, _ => False := by
  have hid : r.taskId = task.taskId := by rw [htask.record]; rfl
  have hsome : (repo.get r.taskId).isSome = (table.get task.taskId).isSome := by
    rw [hid]
    exact isSome_eq (h task.taskId)
  unfold TaskTable.create TaskRepository.create
  rw [hmode]
  simp only [hsome]
  cases (table.get task.taskId).isSome with
  | true => exact rfl
  | false =>
    intro id
    have hstored := htask.stored
    have hget : ∀ row' r', Represents row' r' → row'.taskId = task.taskId → r'.taskId = task.taskId →
        Option.Rel Represents ((table.put (row', serverNow)).get id) ((repo.put r').get id) := by
      intro row' r' hr hrow' hr'
      rw [TaskTable.get_put, TaskRepository.get_put, hr', hrow']
      exact rel_ite (.some hr) (h id)
    exact hget _ _ hstored rfl hid

end Refinement

/-! ## Both modes in step -/

/-- What `get` and `list_recoverable_tasks` return is the same in both modes,
the list up to its order. -/
def SameRecords (mem : TaskMemory) (table : TaskTable) : Prop :=
  (∀ id, mem.get id = table.get id) ∧ mem.listRecoverableTasks.Perm table.listRecoverableTasks

theorem TaskMemory.nodup_listRecoverableTasks (mem : TaskMemory) : mem.listRecoverableTasks.Nodup := by
  refine List.Nodup.filter _ (List.Nodup.of_map (·.taskId) ?_)
  have hids : mem.rows.values.map (·.taskId) = mem.rows.keys := by
    simp only [Dict.values, Dict.keys, List.map_map]
    exact List.map_congr_left fun e he => mem.keyed e.1 e.2 (mem.rows.mem_entries_iff.1 he)
  rw [hids]
  exact mem.rows.nodup

theorem TaskTable.nodup_listRecoverableTasks (table : TaskTable) : table.listRecoverableTasks.Nodup := by
  have hids : (table.rows.values.map Prod.fst).map (·.taskId) = table.rows.keys := by
    simp only [Dict.values, Dict.keys, List.map_map]
    exact List.map_congr_left fun e he => table.keyed e.1 e.2 (table.rows.mem_entries_iff.1 he)
  have hrows : (table.rows.values.map Prod.fst).Nodup := List.Nodup.of_map (·.taskId) (hids ▸ table.rows.nodup)
  have hperm := (List.mergeSort_perm (table.rows.values.filter fun row => row.1.recoverable)
    fun row row' => row.2 ≤ row'.2).map Prod.fst
  exact hperm.nodup_iff.2 (hrows.sublist (List.filter_sublist.map _))

/-- Equal records are equally recoverable. -/
theorem sameRecords_iff {mem : TaskMemory} {table : TaskTable} :
    SameRecords mem table ↔ ∀ id, mem.get id = table.get id := by
  refine ⟨And.left, fun h => ⟨h, ?_⟩⟩
  rw [List.perm_ext_iff_of_nodup mem.nodup_listRecoverableTasks table.nodup_listRecoverableTasks]
  intro row
  rw [mem.mem_listRecoverableTasks, table.mem_listRecoverableTasks, h]

/-- The calls of the repository. -/
inductive TaskOp
  | create (task : TaskRow)
  | updateStatus (id : TaskId) (update : StatusUpdate)
  | get (id : TaskId)
  | listRecoverableTasks

/-- A call, and the `current_timestamp` of the server. -/
structure TaskOpEvent where
  op : TaskOp
  serverNow : Time

/-- Both modes, each on its own store. A task id is created once. -/
def taskModes : Machine (TaskMemory × TaskTable) TaskOpEvent where
  step s e :=
    match e.op with
    | .create task =>
      if (s.1.get task.taskId).isSome then none
      else
        match s.2.create e.serverNow task with
        | .ok table => some (s.1.create task, table)
        | .error _ => some (s.1.create task, s.2)
    | .updateStatus id update => some (s.1.updateStatus id update, s.2.updateStatus id update)
    | .get _ => some s
    | .listRecoverableTasks => some s

/-- The update gives every field that the record has. -/
def StatusUpdate.Restates (update : StatusUpdate) (item : TaskRow) : Prop :=
  (update.traceId = none → item.traceId = none) ∧ (update.resultJson = none → item.resultJson = none) ∧
    (update.errorMessage = none → item.errorMessage = none)

/-- A new task comes with its request, and an update gives every field that is
set. -/
def Complete (mem : TaskMemory) (e : TaskOpEvent) : Prop :=
  match e.op with
  | .create task => mem.get task.taskId = none → task.requestJson ≠ none
  | .updateStatus id update => ∀ item, mem.get id = some item → update.Restates item
  | .get _ => True
  | .listRecoverableTasks => True

theorem orElse_eq_left_iff {α : Type} (a b : Option α) : (a <|> b) = a ↔ (a = none → b = none) := by
  cases a <;> simp

/-- The modes write the same exactly if the update gives every field that is
set. -/
theorem write_eq_iff (item : TaskRow) (update : StatusUpdate) :
    TaskMemory.write item update = TaskTable.write item update ↔ update.Restates item := by
  simp only [TaskMemory.write, TaskTable.write, StatusUpdate.Restates, TaskRow.mk.injEq, orElse_eq_left_iff, true_and]

/-- The request that is stored is the one that is given, if one is. -/
theorem storedRequest_eq_iff (requestJson : Option (Dict String Json)) :
    requestJson = some (TaskTable.storedRequest requestJson) ↔ requestJson ≠ none := by
  cases requestJson <;> simp [TaskTable.storedRequest]

/-- What the table holds after a new task is created. -/
theorem TaskTable.get_create {table table' : TaskTable} {serverNow : Time} {task : TaskRow}
    (h : table.create serverNow task = .ok table') (id : TaskId) :
    table'.get id =
      if id = task.taskId then some { task with requestJson := some (storedRequest task.requestJson) }
      else table.get id := by
  unfold create at h
  split at h
  · cases h
  · rw [← Except.ok.inj h, get_put]

/-- Two maps that agree stay so under a write of one key exactly if the same is
written. -/
theorem forall_ite_iff {κ ν : Type} [DecidableEq κ] {f g : κ → Option ν} (hfg : ∀ k, f k = g k) (k : κ)
    (v w : Option ν) : (∀ l, (if l = k then v else f l) = (if l = k then w else g l)) ↔ v = w := by
  constructor
  · intro h
    have hk := h k
    rwa [if_pos rfl, if_pos rfl] at hk
  · rintro rfl l
    rw [hfg]

/-- A call leaves the two modes with the same records exactly if it is
complete. -/
theorem step_sameRecords_iff {s : TaskMemory × TaskTable} {e : TaskOpEvent} (h : SameRecords s.1 s.2) :
    (∀ s', taskModes.step s e = some s' → SameRecords s'.1 s'.2) ↔ Complete s.1 e := by
  obtain ⟨mem, table⟩ := s
  obtain ⟨op, serverNow⟩ := e
  have hget := sameRecords_iff.1 h
  simp only at hget
  cases op with
  | create task =>
    simp only [taskModes, Complete]
    cases hnew : mem.get task.taskId with
    | some item => simp
    | none =>
      have hcreate : ∃ table', table.create serverNow task = .ok table' := by
        refine ⟨_, if_neg ?_⟩
        rw [← hget, hnew]
        exact Bool.false_ne_true
      obtain ⟨table', hcreate⟩ := hcreate
      simp only [Option.isSome_none, Bool.false_eq_true, ↓reduceIte, hcreate, Option.some.injEq, forall_eq',
        sameRecords_iff, TaskMemory.create, TaskMemory.get_put, TaskTable.get_create hcreate, forall_true_left]
      rw [forall_ite_iff hget, ← storedRequest_eq_iff, Option.some.injEq]
      constructor
      · intro heq
        exact congrArg TaskRow.requestJson heq
      · intro heq
        rw [← heq]
  | updateStatus id update =>
    simp only [taskModes, Complete, Option.some.injEq, forall_eq', sameRecords_iff, TaskMemory.get_updateStatus,
      TaskTable.get_updateStatus]
    rw [forall_ite_iff hget, ← hget id]
    cases mem.get id with
    | none => simp
    | some item => simp [write_eq_iff]
  | get id => simpa [taskModes, Complete] using h
  | listRecoverableTasks => simpa [taskModes, Complete] using h

/-- In every sequence of calls on empty stores that creates each task once, the
two modes hold the same records at every step exactly if every new task comes
with its request and no update omits a field that is set. -/
theorem modes_same_records_iff (es : List TaskOpEvent) :
    taskModes.Always (fun s => SameRecords s.1 s.2) (.empty, .empty) es ↔
      taskModes.Meets (fun s e => Complete s.1 e) (.empty, .empty) es :=
  taskModes.always_iff step_sameRecords_iff (sameRecords_iff.2 fun _ => rfl)

/-- A task that completes, is executed again and fails. -/
def completedThenFailed : List TaskOpEvent :=
  [⟨.create {
      taskId := "t1", tenantId := "acme", userId := "u1", sessionId := "s1", taskType := "qa"
      status := "queued", requestJson := some (Dict.empty.set "input" (.str "hello")) }, 0⟩,
    ⟨.updateStatus "t1" {
      status := "completed", traceId := some "tr1"
      resultJson := some (Dict.empty.set "answer" (.str "ok")) }, 1⟩,
    ⟨.updateStatus "t1" { status := "failed", errorMessage := some "boom" }, 2⟩]

/-- The failed task keeps its result in memory and loses it in the table. -/
theorem completedThenFailed_differs :
    ¬ taskModes.Always (fun s => SameRecords s.1 s.2) (.empty, .empty) completedThenFailed := by
  rw [taskModes.always_iff step_sameRecords_iff (sameRecords_iff.2 fun _ => rfl)]
  rintro ⟨-, h⟩
  obtain ⟨-, h⟩ := h _ rfl
  have hkept := (h _ rfl).1 _ rfl
  exact absurd (hkept.1 rfl) (by decide)

end Ochestrate
