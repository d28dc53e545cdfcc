import Ochestrate.Framework.Fault
import Ochestrate.Schemas.Api

/-!
# The task repository

`app/storage/repositories/task_repo.py`. The repository keeps its rows in
memory (`_session_factory is None`) or in the table `task_queue_status`. The
two modes differ in `create` (the table's `task_id` is unique), in
`update_status` (an omitted field is kept in memory and cleared in the table)
and in the order of `list_recoverable_tasks` (the table's is by creation time,
which does not separate rows of the same second).
-/

namespace Ochestrate

abbrev TaskId := String

/-- Whether the repository has a session factory. -/
inductive RepoMode | memory | database
  deriving DecidableEq, Repr

structure TaskRecord where
  taskId : TaskId
  tenantId : String
  userId : String
  sessionId : String
  taskType : TaskType
  status : TaskStatus
  traceId : Option String := none
  requestJson : Option Json := none
  resultJson : Option Json := none
  errorMessage : Option String := none
  deriving DecidableEq

/-- The rows by task id, each under its own id. -/
structure TaskRepository where
  mode : RepoMode
  rows : Dict TaskId TaskRecord
  keyed : ∀ id r, rows.get? id = some r → r.taskId = id

/-- The statuses from which a task is recovered. -/
def TaskStatus.recoverable (s : TaskStatus) : Bool := s = .queued || s = .running

/-- The row after `update_status`. -/
def TaskRecord.updateStatus (mode : RepoMode) (r : TaskRecord) (status : TaskStatus)
    (traceId : Option String) (resultJson : Option Json) (errorMessage : Option String) : TaskRecord :=
  match mode with
  | .memory =>
    { r with
      status := status
      traceId := traceId <|> r.traceId
      resultJson := resultJson <|> r.resultJson
      errorMessage := errorMessage <|> r.errorMessage }
  | .database =>
    { r with
      status := status
      traceId := traceId
      resultJson := resultJson
      errorMessage := errorMessage }

namespace TaskRepository

/-- A repository without rows. -/
def empty (mode : RepoMode) : TaskRepository := ⟨mode, .empty, fun _ _ h => nomatch h⟩

/-- The row of a task. -/
def get (repo : TaskRepository) (id : TaskId) : Option TaskRecord := repo.rows.get? id

/-- Writes a row under its id. -/
def put (repo : TaskRepository) (task : TaskRecord) : TaskRepository where
  mode := repo.mode
  rows := repo.rows.set task.taskId task
  keyed id r h := by
    rw [Dict.get?_set] at h
    split at h
    · rename_i hid; rw [← Option.some.inj h, hid]
    · exact repo.keyed id r h

/-- `create`: in the table `task_id` is unique, and a missing request is
stored as the empty dictionary. -/
def create (repo : TaskRepository) (task : TaskRecord) : Except Exc TaskRepository :=
  match repo.mode with
  | .memory => .ok (repo.put task)
  | .database =>
    if (repo.get task.taskId).isSome then .error ⟨.integrityError, "UNIQUE constraint failed"⟩
    else .ok (repo.put { task with requestJson := some ((task.requestJson.filter Json.truthy).getD (.obj [])) })

/-- `update_status`; an unknown task is ignored. -/
def updateStatus (repo : TaskRepository) (id : TaskId) (status : TaskStatus)
    (traceId : Option String := none) (resultJson : Option Json := none)
    (errorMessage : Option String := none) : TaskRepository :=
  match repo.get id with
  | none => repo
  | some r => repo.put (r.updateStatus repo.mode status traceId resultJson errorMessage)

/-- The rows whose status is `queued` or `running`, oldest first. -/
def recoverableTasks (repo : TaskRepository) : List TaskRecord :=
  repo.rows.values.filter fun r => r.status.recoverable

/-- A list that `list_recoverable_tasks` may return: in the table the rows of
one second come in any order. -/
def ListsRecoverable (repo : TaskRepository) (records : List TaskRecord) : Prop :=
  match repo.mode with
  | .memory => records = repo.recoverableTasks
  | .database => records.Perm repo.recoverableTasks

instance (repo : TaskRepository) (records : List TaskRecord) : Decidable (repo.ListsRecoverable records) :=
  match hm : repo.mode with
  | .memory => decidable_of_iff (records = repo.recoverableTasks) (by simp [ListsRecoverable, hm])
  | .database => decidable_of_iff (records.Perm repo.recoverableTasks) (by simp [ListsRecoverable, hm])

variable (repo : TaskRepository)

theorem get_put (task : TaskRecord) (id : TaskId) :
    (repo.put task).get id = if id = task.taskId then some task else repo.get id :=
  Dict.get?_set ..

theorem taskId_of_get {id : TaskId} {r : TaskRecord} (h : repo.get id = some r) : r.taskId = id :=
  repo.keyed id r h

@[simp] theorem updateStatus_mode (id : TaskId) (status : TaskStatus) (t : Option String) (j : Option Json)
    (e : Option String) : (repo.updateStatus id status t j e).mode = repo.mode := by
  unfold updateStatus; split <;> rfl

end TaskRepository

@[simp] theorem TaskRecord.updateStatus_taskId (mode : RepoMode) (r : TaskRecord) (status : TaskStatus)
    (t : Option String) (j : Option Json) (e : Option String) :
    (r.updateStatus mode status t j e).taskId = r.taskId := by
  cases mode <;> rfl

@[simp] theorem TaskRecord.updateStatus_status (mode : RepoMode) (r : TaskRecord) (status : TaskStatus)
    (t : Option String) (j : Option Json) (e : Option String) :
    (r.updateStatus mode status t j e).status = status := by
  cases mode <;> rfl

namespace TaskRepository

variable (repo : TaskRepository)

/-- `update_status` changes the row of its task only. -/
theorem get_updateStatus (id id' : TaskId) (status : TaskStatus) (t : Option String) (j : Option Json)
    (e : Option String) :
    (repo.updateStatus id status t j e).get id' =
      if id' = id then (repo.get id).map (·.updateStatus repo.mode status t j e) else repo.get id' := by
  simp only [updateStatus]
  cases hr : repo.get id with
  | none =>
    simp only [Option.map_none]
    split
    · rename_i h; rw [h, hr]
    · rfl
  | some r => simp only [get_put, TaskRecord.updateStatus_taskId, repo.taskId_of_get hr, Option.map_some]

/-- What a new row of `create` holds. -/
theorem get_create {task : TaskRecord} {repo' : TaskRepository} (h : repo.create task = .ok repo')
    (hj : ∀ j, task.requestJson = some j → j.truthy = true) (hs : task.requestJson ≠ none) (id : TaskId) :
    repo'.get id = if id = task.taskId then some task else repo.get id := by
  unfold create at h
  split at h
  · rw [← Except.ok.inj h, get_put]
  · split at h
    · cases h
    · obtain ⟨j, hj'⟩ := Option.ne_none_iff_exists'.1 hs
      have : some ((task.requestJson.filter Json.truthy).getD (.obj [])) = task.requestJson := by
        rw [hj', Option.filter_some, if_pos (hj j hj')]; rfl
      rw [← Except.ok.inj h, this, get_put]

/-- A row with a new id is created. -/
theorem create_of_get_none {task : TaskRecord} (h : repo.get task.taskId = none) :
    ∃ repo', repo.create task = .ok repo' := by
  unfold create
  split
  · exact ⟨_, rfl⟩
  · exact ⟨_, if_neg (by simp [h])⟩

theorem create_mode {task : TaskRecord} {repo' : TaskRepository} (h : repo.create task = .ok repo') :
    repo'.mode = repo.mode := by
  unfold create at h
  split at h
  · rw [← Except.ok.inj h]; rfl
  · split at h
    · cases h
    · rw [← Except.ok.inj h]; rfl

/-- The recoverable rows are the rows with a recoverable status. -/
theorem mem_recoverableTasks {r : TaskRecord} :
    r ∈ repo.recoverableTasks ↔ repo.get r.taskId = some r ∧ r.status.recoverable = true := by
  simp only [recoverableTasks, List.mem_filter, Dict.mem_values]
  constructor
  · rintro ⟨⟨k, hk⟩, hr⟩
    exact ⟨by rw [repo.keyed k r hk]; exact hk, hr⟩
  · rintro ⟨hg, hr⟩; exact ⟨⟨_, hg⟩, hr⟩

theorem values_ids : repo.rows.values.map (·.taskId) = repo.rows.keys := by
  have hk : ∀ e ∈ repo.rows.entries, e.2.taskId = e.1 := fun e he =>
    repo.keyed e.1 e.2 ((repo.rows.mem_entries_iff).1 he)
  simp only [Dict.values, Dict.keys, List.map_map]
  exact List.map_congr_left hk

/-- `list_recoverable_tasks` lists no task twice. -/
theorem ListsRecoverable.nodup {repo : TaskRepository} {records : List TaskRecord}
    (h : repo.ListsRecoverable records) : (records.map (·.taskId)).Nodup := by
  have hn : (repo.recoverableTasks.map (·.taskId)).Nodup := by
    refine List.Nodup.sublist (List.filter_sublist.map _) ?_
    rw [values_ids]
    exact repo.rows.nodup
  unfold ListsRecoverable at h
  split at h
  · rwa [h]
  · exact (h.map _).nodup_iff.2 hn

theorem ListsRecoverable.mem {repo : TaskRepository} {records : List TaskRecord}
    (h : repo.ListsRecoverable records) {r : TaskRecord} : r ∈ records ↔ r ∈ repo.recoverableTasks := by
  unfold ListsRecoverable at h
  split at h
  · rw [h]
  · exact h.mem_iff

end TaskRepository

end Ochestrate
