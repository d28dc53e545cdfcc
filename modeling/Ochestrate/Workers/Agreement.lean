import Ochestrate.Workers.Delivery

/-!
# Memory and repository agree

`get_status` answers from memory, and from the repository for a task that is
not there. Both answers are the same when nobody is at work on the task
(`status_agrees`): `TaskEnvelope.Matches` is the agreement of the two copies,
`Life.InStep` what holds of them at each stage of the worker.

Two steps break it. A start recovers a row persisted as `running` with a
`queued` envelope and leaves the row as it is. And in the database
`update_status` clears the result and the error that it is not given, while the
envelope keeps them: an envelope that is run again and ends the other way keeps
the result or the error of the first time.
-/

namespace Ochestrate

/-- The envelope and the row hold the same result and error. -/
structure TaskEnvelope.Matches (task : TaskEnvelope) (r : TaskRecord) : Prop where
  taskId : r.taskId = task.taskId
  traceId : r.traceId = task.result.map (·.traceId)
  resultJson : r.resultJson = task.result.map (·.modelDump)
  error : r.errorMessage = task.error

theorem TaskEnvelope.Matches.snapshot {task : TaskEnvelope} {r : TaskRecord} (h : task.Matches r)
    (hs : r.status = task.status) (P : Pydantic) : r.snapshot P = .ok task.snapshot := by
  cases hr : task.result with
  | none => simp [TaskRecord.snapshot, TaskEnvelope.snapshot, h.taskId, h.traceId, h.resultJson, h.error, hs, hr]
  | some result =>
    have hdoc : r.resultJson.filter Json.truthy = some result.modelDump := by
      rw [h.resultJson, hr, Option.map_some, Option.filter_some, if_pos result.truthy_modelDump]
    simp only [TaskRecord.snapshot, TaskEnvelope.snapshot, hdoc, P.response_dump, h.taskId, h.traceId, h.error, hs,
      hr, Option.map_some]

/-- What `update_status` leaves for an outcome to complete: in memory the fields
of the row, in the table none. -/
def TaskEnvelope.Pending (mode : RepoMode) (task : TaskEnvelope) (r : TaskRecord) : Prop :=
  match mode with
  | .memory => task.Matches r
  | .database => r.taskId = task.taskId

namespace Life

/-- The two copies of a task, at the stage of the worker. -/
def InStepAt (l : Life) (task : TaskEnvelope) (r : TaskRecord) : Prop :=
  match l.stage with
  | none | some .taken | some .persisted => r.status = task.status ∧ task.Matches r
  | some .marked => task.Matches r
  | some .started | some .running => task.Pending l.mode r
  | some (.finished outcome) => (r.settle l.mode outcome).status = task.status ∧ task.Matches (r.settle l.mode outcome)

/-- A task in memory has a row in step with it, and a row that is `queued` holds
no result and no error. -/
structure InStep (l : Life) (id : TaskId) : Prop where
  row : ∀ r, l.row = some r → r.taskId = id
  clean : ∀ r, l.row = some r → r.status = .queued →
    r.traceId = none ∧ r.resultJson = none ∧ r.errorMessage = none
  agree : ∀ task, l.envelope = some task → ∃ r, l.row = some r ∧ l.InStepAt task r

end Life

/-- This step sets the two copies apart: a start recovers a row persisted as
`running`, or in the database an envelope with an error completes or one with a
result fails. -/
def LifeEvent.Diverges (l : Life) : LifeEvent → Prop
  | .submit _ create => create ≠ .none
  | .recover _ => ∃ r, l.row = some r ∧ r.status = .running
  | .run outcome => l.mode = .database ∧ ∃ task, l.envelope = some task ∧
      match outcome with
      | .ok _ => task.error ≠ none
      | .error _ => task.result ≠ none
  | _ => False

variable {P : Pydantic} {id : TaskId}

/-- `update_status` to `running` leaves a row in step pending. -/
theorem TaskEnvelope.Matches.pending {mode : RepoMode} {task : TaskEnvelope} {r : TaskRecord} (h : task.Matches r) :
    task.Pending mode (r.updateStatus mode .running none none none) := by
  cases mode with
  | memory => exact ⟨h.taskId, h.traceId, h.resultJson, h.error⟩
  | database => exact h.taskId

/-- The outcome completes a pending row, unless the envelope keeps what the
table has cleared. -/
theorem TaskEnvelope.Pending.settle {mode : RepoMode} {task : TaskEnvelope} {r : TaskRecord}
    (h : task.Pending mode r) (outcome : Except Exc UnifiedResponse)
    (hd : ¬ (mode = .database ∧ match outcome with
      | .ok _ => task.error ≠ none
      | .error _ => task.result ≠ none)) :
    (r.settle mode outcome).status = (task.settle outcome).status ∧
      (task.settle outcome).Matches (r.settle mode outcome) := by
  cases mode with
  | memory =>
    cases outcome with
    | ok result => exact ⟨rfl, h.taskId, rfl, rfl, h.error⟩
    | error exc => exact ⟨rfl, h.taskId, h.traceId, h.resultJson, rfl⟩
  | database =>
    cases outcome with
    | ok result =>
      have herror : task.error = none := not_not.1 fun herror => hd ⟨rfl, herror⟩
      exact ⟨rfl, h, rfl, rfl, herror.symm⟩
    | error exc =>
      have hresult : task.result = none := not_not.1 fun hresult => hd ⟨rfl, hresult⟩
      have hkept : (task.settle (.error exc)).result = none := hresult
      exact ⟨rfl, h, by rw [hkept]; rfl, by rw [hkept]; rfl, rfl⟩

/-- A step that moves the worker only. -/
theorem Life.InStep.stage {l : Life} (hi : l.InStep id) {waiting : Nat} {stage : Option Stage}
    (hstage : ∀ task r, l.InStepAt task r → Life.InStepAt { l with waiting := waiting, stage := stage } task r) :
    Life.InStep { l with waiting := waiting, stage := stage } id := by
  refine ⟨hi.row, hi.clean, fun task hl => ?_⟩
  obtain ⟨r, hr, hin⟩ := hi.agree task hl
  exact ⟨r, hr, hstage task r hin⟩

/-- A step that writes the row. -/
theorem Life.InStep.persist {l : Life} (hi : l.InStep id) {f : TaskRecord → TaskRecord} {stage : Option Stage}
    (hid : ∀ r, (f r).taskId = r.taskId) (hq : ∀ r, (f r).status ≠ .queued)
    (hstage : ∀ task r, l.InStepAt task r →
      Life.InStepAt { l with row := l.row.map f, stage := stage } task (f r)) :
    Life.InStep { l with row := l.row.map f, stage := stage } id := by
  refine ⟨fun r hr => ?_, fun r hr hr' => ?_, fun task hl => ?_⟩
  · obtain ⟨r', hr', rfl⟩ := Option.map_eq_some_iff.1 hr
    rw [hid, hi.row r' hr']
  · obtain ⟨r', -, rfl⟩ := Option.map_eq_some_iff.1 hr
    exact absurd hr' (hq r')
  · obtain ⟨r, hr, hin⟩ := hi.agree task hl
    exact ⟨f r, by rw [hr]; rfl, hstage task r hin⟩

/-- Every step that does not set the two copies apart keeps them in step. -/
theorem inStep_step {l l' : Life} {e : LifeEvent} (h : (lifeCycle P id).step l e = some l')
    (he : ¬ e.Diverges l) (hi : l.InStep id) : l'.InStep id := by
  cases lifeStep h with
  | @submit request create unborn =>
    obtain ⟨-, -, -, -, -, hstage⟩ := unborn
    rw [Option.isNone_iff_eq_none] at hstage
    have hcreate : create = .none := not_not.1 he
    subst hcreate
    refine ⟨?_, ?_, ?_⟩
    · rintro r ⟨⟩; rfl
    · rintro r ⟨⟩ -; exact ⟨rfl, rfl, rfl⟩
    · rintro task ⟨⟩
      refine ⟨_, rfl, ?_⟩
      simp only [Life.InStepAt, hstage]
      exact ⟨rfl, rfl, rfl, rfl, rfl⟩
  | enqueue | publish => exact ⟨hi.row, hi.clean, hi.agree⟩
  | dequeue hstage _ =>
    refine hi.stage fun task r hin => ?_
    rw [Life.InStepAt, hstage] at hin
    exact hin
  | drop _ hl => exact ⟨hi.row, hi.clean, fun task hl' => by rw [hl] at hl'; cases hl'⟩
  | mark hstage hl =>
    refine ⟨hi.row, hi.clean, ?_⟩
    rintro task' ⟨⟩
    obtain ⟨r, hr, hin⟩ := hi.agree _ hl
    rw [Life.InStepAt, hstage] at hin
    exact ⟨r, hr, hin.2.taskId, hin.2.traceId, hin.2.resultJson, hin.2.error⟩
  | begin hstage =>
    refine hi.persist (fun r => TaskRecord.updateStatus_taskId ..) (fun r => ?_) fun task r hin => ?_
    · rw [TaskRecord.updateStatus_status]; simp
    · rw [Life.InStepAt, hstage] at hin
      exact hin.pending
  | announce hstage =>
    refine hi.stage fun task r hin => ?_
    rw [Life.InStepAt, hstage] at hin
    exact hin
  | @run task outcome hstage hl =>
    refine ⟨hi.row, hi.clean, ?_⟩
    rintro task' ⟨⟩
    obtain ⟨r, hr, hin⟩ := hi.agree task hl
    rw [Life.InStepAt, hstage] at hin
    exact ⟨r, hr, hin.settle outcome fun hd => he ⟨hd.1, task, hl, hd.2⟩⟩
  | @persist outcome hstage =>
    refine hi.persist (fun r => ?_) (fun r => ?_) fun task r hin => ?_
    · cases outcome <;> exact TaskRecord.updateStatus_taskId ..
    · cases outcome <;> rw [TaskRecord.settle, TaskRecord.updateStatus_status] <;> simp
    · rw [Life.InStepAt, hstage] at hin
      exact hin
  | finish hstage =>
    refine hi.stage fun task r hin => ?_
    rw [Life.InStepAt, hstage] at hin
    exact hin
  | recover hstage hrow =>
    obtain ⟨r, hr, hrecovers⟩ := Option.bind_eq_some_iff.1 hrow
    obtain ⟨hstatus, -⟩ := Option.ite_none_right_eq_some.1 hrecovers
    have hq : r.status = .queued := by
      have hno : r.status ≠ .running := fun hrun => he ⟨r, hr, hrun⟩
      simpa [TaskStatus.recoverable, hno] using hstatus
    obtain ⟨htrace, hresult, herror⟩ := hi.clean r hr hq
    refine ⟨hi.row, hi.clean, ?_⟩
    rintro task ⟨⟩
    refine ⟨r, hr, ?_⟩
    simp only [Life.InStepAt, hstage]
    exact ⟨hq, hi.row r hr, htrace, hresult, herror⟩
  | stop => exact hi
  | abandon hstage =>
    refine hi.stage fun task r hin => ?_
    rw [Life.InStepAt, hstage] at hin
    exact hin
  | crash =>
    cases hm : l.mode with
    | memory => exact ⟨by rintro r ⟨⟩, by rintro r ⟨⟩, by rintro task ⟨⟩⟩
    | database => exact ⟨hi.row, hi.clean, by rintro task ⟨⟩⟩
  | other => exact hi

/-! ## The runs of a process -/

namespace Node

/-- This event sets the two copies of the task apart: a start recovers its row
persisted as `running`, or in the database its envelope has an error and
completes, or has a result and fails. -/
def diverges (P : Pydantic) (id : TaskId) (s : Node) : NodeEvent → Bool
  | .start .. =>
    !s.workerTask && (s.repo.get id).any fun r => r.status = .running && (r.recovers P).isSome
  | .run outcome =>
    s.repo.mode = .database && (s.worker.stage id).isSome && (s.tasks.get? id).any fun task =>
      match outcome with
      | .ok _ => task.error.isSome
      | .error _ => task.result.isSome
  | _ => false

theorem diverges_of_life {s : Node} {e : NodeEvent} (hc : e.createFault = .none)
    (h : (s.lifeEvent P id e).Diverges (s.life id)) : s.diverges P id e = true := by
  have hseen := seen P id s e
  cases hl : s.lifeEvent P id e with
  | submit request create =>
    rw [hl] at h hseen
    cases hseen with
    | submit => exact absurd hc h
  | recover enq =>
    rw [hl] at h hseen
    cases hseen with
    | recover faults records hstopped hrecovers =>
      obtain ⟨r, hr, hrun⟩ := h
      have hrow : s.repo.get id = some r := hr
      have hrecovers : (r.recovers P).isSome = true := by simpa [hrow] using hrecovers
      simp [diverges, hstopped, hrow, hrun, hrecovers]
  | run outcome =>
    rw [hl] at h hseen
    cases hseen with
    | run _ hstage =>
      obtain ⟨hmode, task, htask, hkept⟩ := h
      have hmode' : s.repo.mode = .database := hmode
      have htask' : s.tasks.get? id = some task := htask
      cases outcome <;> simpa [diverges, hmode', hstage, htask', Option.isSome_iff_ne_none] using hkept
  | _ =>
    rw [hl] at h
    exact h.elim

end Node

/-- Every step that does not set the copies apart keeps them in step. -/
theorem inStep_keeps (P : Pydantic) (id : TaskId) :
    (node P).Keeps (fun s e => s.diverges P id e = false ∧ e.createFault = .none) fun s => (s.life id).InStep id :=
  (lifeOf P id).keeps (C := fun s e => s.diverges P id e = false ∧ e.createFault = .none)
    (D := fun l e => ¬ e.Diverges l) (I := fun l => l.InStep id)
    (fun hc hs hi => inStep_step hs hc hi) fun _ _ hc hd => by
      simp [Node.diverges_of_life hc.2 hd] at hc

/-- In a run without repository faults in which no step sets the two copies of
a task apart: whenever the worker is not at work on the task, `get_status`
answers from memory what it would answer from the repository. -/
theorem status_agrees {mode : RepoMode} {s : Node} {es : List NodeEvent} (h : (node P).run (.init mode) es = some s)
    (hfault : ∀ e ∈ es, e.createFault = .none)
    (hm : (node P).Meets (fun s e => s.diverges P id e = false) (.init mode) es)
    (hidle : s.worker.stage id = none) (hknown : (s.tasks.get? id).isSome = true) :
    s.getStatus P id = s.storedStatus P id := by
  have hinit : ((Node.init mode).life id).InStep id := ⟨by rintro r ⟨⟩, by rintro r ⟨⟩, by rintro task ⟨⟩⟩
  have hi : (s.life id).InStep id := (node P).run_inv (inStep_keeps P id)
    ((node P).meets_and.2 ⟨hm, (node P).meets_of_forall (D := fun e => e.createFault = .none) hfault⟩) h hinit
  obtain ⟨task, hl⟩ := Option.isSome_iff_exists.1 hknown
  obtain ⟨r, hr, hin⟩ := hi.agree task hl
  have hstage : (s.life id).stage = none := hidle
  rw [Life.InStepAt, hstage] at hin
  have hrow : s.repo.get id = some r := hr
  simp only [System.getStatus, System.storedStatus, hl, hrow, hin.2.snapshot hin.1 P]

/-- The process dies after it persisted `running`; the next start recovers the
task. -/
def crashEvents : List NodeEvent :=
  [.start noFault [], .submit "t" hello .none, .enqueue "t" .none, .publish "t", .dequeue, .work, .work, .crash true,
    .start noFault [(TaskRecord.ofRequest "t" hello).updateStatus .database .running none none none]]

/-- Memory answers `queued`, the repository `running`, and nobody is at work. -/
theorem recovered_running_diverges :
    ((node .strict).run (.init .database) crashEvents).map (fun s =>
      ((s.getStatus .strict "t").toOption.map (·.status), (s.storedStatus .strict "t").toOption.map (·.status),
        s.submits.keys, (s.worker.stage "t").isNone)) =
      some (some .queued, some .running, [], true) := by
  decide

/-- `status_agrees` after an execution and a restart. -/
theorem status_agrees_restart :
    ∃ s, (node .strict).run (.init .database) (finishEvents ++ [.stop, .start noFault []]) = some s ∧
      s.getStatus .strict "t" = s.storedStatus .strict "t" := by
  have hrun : ((node .strict).run (.init .database) (finishEvents ++ [.stop, .start noFault []])).map
      (fun s => ((s.worker.stage "t").isNone, (s.tasks.get? "t").isSome)) = some (true, true) := by
    decide
  obtain ⟨s, hs, hq⟩ := Option.map_eq_some_iff.1 hrun
  simp only [Prod.mk.injEq, Option.isNone_iff_eq_none] at hq
  exact ⟨s, hs, status_agrees hs (by decide) (by decide) hq.1 hq.2⟩

end Ochestrate
