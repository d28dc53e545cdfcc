import Ochestrate.Workers.Faults

/-!
# What a start leaves behind

`_recover_pending_tasks` skips a row without a request, a row whose request is
invalid, and goes on when the queue rejects a task; in all three cases the row
keeps its status. `start_settles_iff` says when no row is left behind so.
-/

namespace Ochestrate

namespace System

/-- A worker will pick the task up with its persisted request, or it is
persisted as failed. -/
def Settles (P : Pydantic) (s : System) (id : TaskId) (r : TaskRecord) : Prop :=
  (id ∈ s.queue ∧ ∃ task, s.tasks.get? id = some task ∧ r.recoveredRequest P = some task.request) ∨
    ∃ r', s.repo.get id = some r' ∧ r'.status = .failed

/-- The row of the task has a valid request, and its `enqueue` takes effect or
the queue holds the task already. A manager that is running must have picked it
up before: its `start` recovers nothing. -/
def StartSettles (P : Pydantic) (faults : TaskId → Fault Exc) (s : System) (id : TaskId) (r : TaskRecord) : Prop :=
  if s.workerTask then s.Settles P id r
  else r.recoveredRequest P ≠ none ∧ ((faults id).takesEffect = true ∨ id ∈ s.queue)

variable (P : Pydantic) (faults : TaskId → Fault Exc) {s : System} {records : List TaskRecord}

/-- A start that recovers writes no row. -/
theorem start_repo (records : List TaskRecord) (h : s.workerTask = false) : (s.start P faults records).repo = s.repo := by
  obtain ⟨tasks, queue, heq⟩ := start_frame P faults records s h
  rw [heq]

/-- A row that is recoverable is not persisted as failed after a start. -/
theorem start_not_failed (h : s.workerTask = false) {id : TaskId} {r : TaskRecord} (hrow : s.repo.get id = some r)
    (hstatus : r.status.recoverable = true) :
    ¬ ∃ r', (s.start P faults records).repo.get id = some r' ∧ r'.status = .failed := by
  rintro ⟨r', hrow', hfailed⟩
  rw [start_repo P faults records h, hrow, Option.some.injEq] at hrow'
  rw [hrow', hfailed] at hstatus
  cases hstatus

/-- What a start does to one row that is recoverable. -/
theorem start_settles_row_iff (hrec : s.repo.ListsRecoverable records) {id : TaskId} {r : TaskRecord}
    (hrow : s.repo.get id = some r) (hstatus : r.status.recoverable = true) :
    (s.start P faults records).Settles P id r ↔ s.StartSettles P faults id r := by
  unfold StartSettles
  cases hworker : s.workerTask with
  | true =>
    have hsame : s.start P faults records = s := if_pos hworker
    rw [hsame, if_pos rfl]
  | false =>
    rw [if_neg Bool.false_ne_true, Settles, or_iff_left (start_not_failed P faults hworker hrow hstatus)]
    have hrecovers : (s.repo.get id).bind (·.recovers P) = r.recoveredRequest P := by
      rw [hrow, Option.bind_some, TaskRecord.recovers, if_pos hstatus]
    cases hreq : r.recoveredRequest P with
    | none => simp
    | some request =>
      obtain ⟨htask, hcount⟩ := start_recovers P faults hworker hrec (hrecovers.trans hreq)
      have hqueue : id ∈ (s.start P faults records).queue ↔ (faults id).takesEffect = true ∨ id ∈ s.queue := by
        rw [← List.count_pos_iff, ← List.count_pos_iff, hcount]
        split <;> simp_all
      rw [hqueue, htask]
      simp

/-- After a start every row that was persisted as `queued` or `running` is in
the queue with its request or persisted as failed, exactly if every such row has
a valid request and reaches the queue. -/
theorem start_settles_iff (hrec : s.repo.ListsRecoverable records) :
    (∀ id r, s.repo.get id = some r → r.status.recoverable = true → (s.start P faults records).Settles P id r) ↔
      ∀ id r, s.repo.get id = some r → r.status.recoverable = true → s.StartSettles P faults id r := by
  constructor
  · intro h id r hrow hstatus
    exact (start_settles_row_iff P faults hrec hrow hstatus).1 (h id r hrow hstatus)
  · intro h id r hrow hstatus
    exact (start_settles_row_iff P faults hrec hrow hstatus).2 (h id r hrow hstatus)

/-- A process that finds one row, persisted as `queued`. -/
def withRow (r : TaskRecord) : System where
  queue := []
  repo := (TaskRepository.empty .database).put r

/-- `start_settles_iff` when the row has its request and the queue works. -/
theorem withRow_settles :
    (∀ id r, (withRow (.ofRequest "t" hello)).repo.get id = some r → r.status.recoverable = true →
        ((withRow (.ofRequest "t" hello)).start .strict (fun _ => .none) [.ofRequest "t" hello]).Settles .strict id r) ↔
      ∀ id r, (withRow (.ofRequest "t" hello)).repo.get id = some r → r.status.recoverable = true →
        (withRow (.ofRequest "t" hello)).StartSettles .strict (fun _ => .none) id r :=
  start_settles_iff .strict (fun _ => .none) (by decide)

/-- The queue is down during the start: the row stays `queued` and no worker will
ever see it. -/
theorem start_leaves_behind :
    ¬ ∀ id r, (withRow (.ofRequest "t" hello)).repo.get id = some r → r.status.recoverable = true →
      ((withRow (.ofRequest "t" hello)).start .strict (fun _ => .before ⟨.other, "down"⟩)
        [.ofRequest "t" hello]).Settles .strict id r := by
  intro h
  rcases h "t" (.ofRequest "t" hello) rfl rfl with ⟨hqueue, -⟩ | ⟨r', hrow, hfailed⟩
  · exact absurd hqueue (by decide)
  · have hstatus : (((withRow (.ofRequest "t" hello)).start .strict (fun _ => .before ⟨.other, "down"⟩)
        [.ofRequest "t" hello]).repo.get "t").map (·.status) = some .queued := by decide
    rw [hrow, Option.map_some, hfailed] at hstatus
    cases hstatus

end System

end Ochestrate
