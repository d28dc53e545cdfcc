import Ochestrate.Framework.Machine
import Ochestrate.Workers.Step

/-!
# The life of one task

What a process is for, seen from one task: the task is submitted, waits in the
queue, is taken by the worker, runs and ends completed or failed; a restart may
put it back into the queue. A `Life` holds the state of one task only: its
envelope, its row, how often its id is in the queue, the stage the worker is at
with it and the requests it was run with.

`Node.life id` is this view of a process. `lifeOf` proves that every step of a
process is a step of the life of each task (`LifeEvent.other` for the steps
that do not concern it), so what a life keeps, a process keeps for every task.
-/

namespace Ochestrate

structure Life where
  mode : RepoMode
  envelope : Option TaskEnvelope := none
  row : Option TaskRecord := none
  waiting : Nat := 0
  submission : Option Submission := none
  stage : Option Stage := none
  runs : List UnifiedRequest := []
  submitted : Option UnifiedRequest := none
  accepted : Bool := false

inductive LifeEvent
  | submit (request : UnifiedRequest) (create : Fault Exc)
  | enqueue (enq : Fault Exc)
  | publish
  | dequeue
  | work
  | run (outcome : Except Exc UnifiedResponse)
  | recover (enq : Fault Exc)
  | stop
  | crash (keepQueue : Bool)
  | other

/-- The row once `orchestrator.run` ended. -/
def TaskRecord.settle (mode : RepoMode) (r : TaskRecord) : Except Exc UnifiedResponse → TaskRecord
  | .ok result => r.updateStatus mode .completed (some result.traceId) (some result.modelDump) none
  | .error exc => r.updateStatus mode .failed none none (some exc.message)

namespace Life

/-- The task has not been heard of. -/
def Unborn (l : Life) : Prop :=
  l.submitted = none ∧ l.submission.isNone = true ∧ l.envelope = none ∧ l.row = none ∧ l.waiting = 0 ∧
    l.stage.isNone = true

instance (l : Life) : Decidable l.Unborn := inferInstanceAs (Decidable (_ ∧ _ ∧ _ ∧ _ ∧ _ ∧ _))

/-- The next statement of the worker. -/
def work (l : Life) : Option Life :=
  match l.stage with
  | some .taken =>
    match l.envelope with
    | none => some { l with stage := none }
    | some task => some { l with envelope := some { task with status := .running }, stage := some .marked }
  | some .marked =>
    some { l with row := l.row.map (·.updateStatus l.mode .running none none none), stage := some .started }
  | some .started => some { l with stage := some .running }
  | some (.finished outcome) =>
    some { l with row := l.row.map (·.settle l.mode outcome), stage := some .persisted }
  | some .persisted => some { l with stage := none }
  | _ => none

end Life

/-- The life of the task `id`. -/
def lifeCycle (P : Pydantic) (id : TaskId) : Machine Life LifeEvent where
  step l
    | .submit request create =>
      if l.Unborn then
        some { l with
          envelope := some { taskId := id, request := request }
          row := if create.takesEffect then some (.ofRequest id request) else none
          submission := if create.raises then none else some .created
          submitted := some request }
      else none
    | .enqueue enq =>
      if l.submission = some .created then
        some { l with
          waiting := l.waiting + if enq.takesEffect then 1 else 0
          submission := if enq.raises then none else some .enqueued }
      else none
    | .publish => if l.submission = some .enqueued then some { l with submission := none, accepted := true } else none
    | .dequeue => match l.stage with
      | none => if 0 < l.waiting then some { l with waiting := l.waiting - 1, stage := some .taken } else none
      | some _ => none
    | .work => l.work
    | .run outcome => match l.stage, l.envelope with
      | some .running, some task =>
        some { l with
          envelope := some (task.settle outcome)
          runs := l.runs ++ [task.request]
          stage := some (.finished outcome) }
      | _, _ => none
    | .recover enq => match l.stage, l.row.bind (·.recovers P) with
      | none, some request =>
        some { l with
          envelope := some { taskId := id, request := request }
          waiting := l.waiting + if enq.takesEffect then 1 else 0 }
      | _, _ => none
    | .stop => match l.stage with
      | none => some l
      | some .taken => some { l with stage := none }
      | _ => none
    | .crash keepQueue =>
      some { l with
        envelope := none
        row := match l.mode with
          | .memory => none
          | .database => l.row
        waiting := if keepQueue then l.waiting else 0
        submission := none
        stage := none }
    | .other => some l

/-- The steps of a life, one constructor for each branch of `lifeCycle`. -/
inductive LifeStep (P : Pydantic) (id : TaskId) (l : Life) : LifeEvent → Life → Prop
  | submit {request create} (unborn : l.Unborn) : LifeStep P id l (.submit request create) { l with
      envelope := some { taskId := id, request := request }
      row := if create.takesEffect then some (.ofRequest id request) else none
      submission := if create.raises then none else some .created
      submitted := some request }
  | enqueue {enq} (hsub : l.submission = some .created) : LifeStep P id l (.enqueue enq) { l with
      waiting := l.waiting + if enq.takesEffect then 1 else 0
      submission := if enq.raises then none else some .enqueued }
  | publish (hsub : l.submission = some .enqueued) : LifeStep P id l .publish
      { l with submission := none, accepted := true }
  | dequeue (hstage : l.stage = none) (hwait : 0 < l.waiting) : LifeStep P id l .dequeue
      { l with waiting := l.waiting - 1, stage := some .taken }
  | drop (hstage : l.stage = some .taken) (hl : l.envelope = none) : LifeStep P id l .work { l with stage := none }
  | mark {task} (hstage : l.stage = some .taken) (hl : l.envelope = some task) : LifeStep P id l .work
      { l with envelope := some { task with status := .running }, stage := some .marked }
  | begin (hstage : l.stage = some .marked) : LifeStep P id l .work
      { l with row := l.row.map (·.updateStatus l.mode .running none none none), stage := some .started }
  | announce (hstage : l.stage = some .started) : LifeStep P id l .work { l with stage := some .running }
  | run {task outcome} (hstage : l.stage = some .running) (hl : l.envelope = some task) :
      LifeStep P id l (.run outcome) { l with
        envelope := some (task.settle outcome)
        runs := l.runs ++ [task.request]
        stage := some (.finished outcome) }
  | persist {outcome} (hstage : l.stage = some (.finished outcome)) : LifeStep P id l .work
      { l with row := l.row.map (·.settle l.mode outcome), stage := some .persisted }
  | finish (hstage : l.stage = some .persisted) : LifeStep P id l .work { l with stage := none }
  | recover {request enq} (hstage : l.stage = none) (hrow : l.row.bind (·.recovers P) = some request) :
      LifeStep P id l (.recover enq) { l with
        envelope := some { taskId := id, request := request }
        waiting := l.waiting + if enq.takesEffect then 1 else 0 }
  | stop (hstage : l.stage = none) : LifeStep P id l .stop l
  | abandon (hstage : l.stage = some .taken) : LifeStep P id l .stop { l with stage := none }
  | crash {keepQueue} : LifeStep P id l (.crash keepQueue) { l with
      envelope := none
      row := match l.mode with
        | .memory => none
        | .database => l.row
      waiting := if keepQueue then l.waiting else 0
      submission := none
      stage := none }
  | other : LifeStep P id l .other l

theorem lifeStep {P : Pydantic} {id : TaskId} {l l' : Life} {e : LifeEvent}
    (h : (lifeCycle P id).step l e = some l') : LifeStep P id l e l' := by
  cases e with
  | submit request create =>
    obtain ⟨hunborn, h⟩ := Option.ite_none_right_eq_some.1 h
    exact Option.some.inj h ▸ .submit hunborn
  | enqueue enq =>
    obtain ⟨hsub, h⟩ := Option.ite_none_right_eq_some.1 h
    exact Option.some.inj h ▸ .enqueue hsub
  | publish =>
    obtain ⟨hsub, h⟩ := Option.ite_none_right_eq_some.1 h
    exact Option.some.inj h ▸ .publish hsub
  | dequeue =>
    simp only [lifeCycle] at h
    split at h
    · rename_i hstage
      obtain ⟨hwait, h⟩ := Option.ite_none_right_eq_some.1 h
      exact Option.some.inj h ▸ .dequeue hstage hwait
    · cases h
  | work =>
    simp only [lifeCycle, Life.work] at h
    split at h
    · rename_i hstage
      split at h
      · rename_i hl
        exact Option.some.inj h ▸ .drop hstage hl
      · rename_i task hl
        exact Option.some.inj h ▸ .mark hstage hl
    · rename_i hstage
      exact Option.some.inj h ▸ .begin hstage
    · rename_i hstage
      exact Option.some.inj h ▸ .announce hstage
    · rename_i outcome hstage
      exact Option.some.inj h ▸ .persist hstage
    · rename_i hstage
      exact Option.some.inj h ▸ .finish hstage
    · cases h
  | run outcome =>
    simp only [lifeCycle] at h
    split at h
    · rename_i task hstage hl
      exact Option.some.inj h ▸ .run hstage hl
    · cases h
  | recover enq =>
    simp only [lifeCycle] at h
    split at h
    · rename_i request hstage hrow
      exact Option.some.inj h ▸ .recover hstage hrow
    · cases h
  | stop =>
    simp only [lifeCycle] at h
    split at h
    · rename_i hstage
      exact Option.some.inj h ▸ .stop hstage
    · rename_i hstage
      exact Option.some.inj h ▸ .abandon hstage
    · cases h
  | crash keepQueue => exact Option.some.inj h ▸ .crash
  | other => exact Option.some.inj h ▸ .other

/-- What a process holds of one task. -/
def Node.life (s : Node) (id : TaskId) : Life where
  mode := s.repo.mode
  envelope := s.tasks.get? id
  row := s.repo.get id
  waiting := s.queue.count id
  submission := s.submits.get? id
  stage := s.worker.stage id
  runs := (s.calls.filter (·.1 = id)).map Prod.snd
  submitted := s.submitted.get? id
  accepted := s.accepted.contains id

/-- What an event of a process is to one task. -/
def Node.lifeEvent (P : Pydantic) (id : TaskId) (s : Node) : NodeEvent → LifeEvent
  | .submit id' request create => if id' = id then .submit request create else .other
  | .enqueue id' enq => if id' = id then .enqueue enq else .other
  | .publish id' => if id' = id then .publish else .other
  | .dequeue => if s.queue.head? = some id then .dequeue else .other
  | .work => if (s.worker.stage id).isSome then .work else .other
  | .run outcome => if (s.worker.stage id).isSome then .run outcome else .other
  | .start faults _ =>
    if s.workerTask = false ∧ ((s.repo.get id).bind (·.recovers P)).isSome then .recover (faults id) else .other
  | .stop => .stop
  | .crash keepQueue => .crash keepQueue
  | _ => .other

namespace Node

variable {P : Pydantic} {id : TaskId}

/-- The events of a process that are something to the task, with what they are. -/
inductive Seen (P : Pydantic) (id : TaskId) (s : Node) : NodeEvent → LifeEvent → Prop
  | submit (request : UnifiedRequest) (create : Fault Exc) : Seen P id s (.submit id request create) (.submit request create)
  | enqueue (enq : Fault Exc) : Seen P id s (.enqueue id enq) (.enqueue enq)
  | publish : Seen P id s (.publish id) .publish
  | dequeue (hhead : s.queue.head? = some id) : Seen P id s .dequeue .dequeue
  | work (hstage : (s.worker.stage id).isSome) : Seen P id s .work .work
  | run (outcome : Except Exc UnifiedResponse) (hstage : (s.worker.stage id).isSome) :
      Seen P id s (.run outcome) (.run outcome)
  | recover (faults : TaskId → Fault Exc) (records : List TaskRecord) (hstopped : s.workerTask = false)
      (hrecovers : ((s.repo.get id).bind (·.recovers P)).isSome) : Seen P id s (.start faults records) (.recover (faults id))
  | stop : Seen P id s .stop .stop
  | crash (keepQueue : Bool) : Seen P id s (.crash keepQueue) (.crash keepQueue)
  | other {e : NodeEvent} : Seen P id s e .other

theorem seen (P : Pydantic) (id : TaskId) (s : Node) (e : NodeEvent) : Seen P id s e (s.lifeEvent P id e) := by
  cases e with
  | submit id' request create =>
    rw [lifeEvent]
    split
    · next hid => exact hid ▸ .submit request create
    · exact .other
  | enqueue id' enq =>
    rw [lifeEvent]
    split
    · next hid => exact hid ▸ .enqueue enq
    · exact .other
  | publish id' =>
    rw [lifeEvent]
    split
    · next hid => exact hid ▸ .publish
    · exact .other
  | dequeue =>
    rw [lifeEvent]
    split
    · next hhead => exact .dequeue hhead
    · exact .other
  | work =>
    rw [lifeEvent]
    split
    · next hstage => exact .work hstage
    · exact .other
  | run outcome =>
    rw [lifeEvent]
    split
    · next hstage => exact .run outcome hstage
    · exact .other
  | start faults records =>
    rw [lifeEvent]
    split
    · next hs => exact .recover faults records hs.1 hs.2
    · exact .other
  | stop => exact .stop
  | crash keepQueue => exact .crash keepQueue
  | _ => exact .other

theorem lifeEvent_dequeue {s : Node} {e : NodeEvent} (h : s.lifeEvent P id e = .dequeue) :
    e = .dequeue ∧ s.queue.head? = some id := by
  have hseen := seen P id s e
  rw [h] at hseen
  cases hseen with
  | dequeue hhead => exact ⟨rfl, hhead⟩

theorem lifeEvent_submit {s : Node} {e : NodeEvent} {request : UnifiedRequest} {create : Fault Exc}
    (h : s.lifeEvent P id e = .submit request create) : e = .submit id request create := by
  have hseen := seen P id s e
  rw [h] at hseen
  cases hseen with
  | submit => rfl

end Node

/-! ## Every step of a process is a step of each life -/

variable (P : Pydantic)

theorem TaskRepository.get_create_ofRequest {repo repo' : TaskRepository} {id : TaskId} {request : UnifiedRequest}
    (h : repo.create (.ofRequest id request) = .ok repo') (id' : TaskId) :
    repo'.get id' = if id' = id then some (.ofRequest id request) else repo.get id' :=
  repo.get_create h (fun j hj => by rw [← Option.some.inj hj]; exact request.truthy_modelDump) (by rintro ⟨⟩) id'

theorem Worker.stage_holding (id id' : TaskId) (stage : Stage) :
    (Worker.holding id' stage).stage id = if id' = id then some stage else none := rfl

theorem System.get_persistOutcome (s : System) (id id' : TaskId) (outcome : Except Exc UnifiedResponse) :
    (s.persistOutcome id outcome).repo.get id' =
      if id' = id then (s.repo.get id).map (·.settle s.repo.mode outcome) else s.repo.get id' := by
  cases outcome <;> exact s.repo.get_updateStatus ..

theorem System.mode_persistOutcome (s : System) (id : TaskId) (outcome : Except Exc UnifiedResponse) :
    (s.persistOutcome id outcome).repo.mode = s.repo.mode := by
  cases outcome <;> exact s.repo.updateStatus_mode ..

/-- A start, seen from a task. -/
theorem Node.life_start {s : Node} (hstopped : s.workerTask = false) (faults : TaskId → Fault Exc)
    {records : List TaskRecord} (hrec : s.repo.ListsRecoverable records) (hoff : s.worker = .off) (id : TaskId) :
    (lifeCycle P id).step (s.life id) (s.lifeEvent P id (.start faults records)) = some { s.life id with
      envelope := (s.toSystem.start P faults records).tasks.get? id
      waiting := (s.toSystem.start P faults records).queue.count id } := by
  cases hr : (s.repo.get id).bind (·.recovers P) with
  | some request =>
    have hstart := s.start_recovers P faults hstopped hrec hr
    obtain ⟨r, hrow, hrecovers⟩ := Option.bind_eq_some_iff.1 hr
    simp [lifeEvent, lifeCycle, life, hstopped, hrow, hrecovers, hoff, hstart, Worker.stage]
  | none =>
    have hstart := s.start_skips P faults hstopped hrec hr
    simp [lifeEvent, lifeCycle, life, hstopped, hr, hstart]

/-- Every step of a process is a step of the life of each task. -/
theorem Node.life_step {s s' : Node} {e : NodeEvent} (h : (node P).step s e = some s') (id : TaskId) :
    (lifeCycle P id).step (s.life id) (s.lifeEvent P id e) = some (s'.life id) := by
  cases nodeStep h with
  | @submit id' request create repo fresh hrepo =>
    have hget := TaskRepository.get_create_ofRequest hrepo
    have hmode := s.repo.create_mode hrepo
    by_cases hid : id' = id
    · subst hid
      obtain ⟨h₁, h₂, h₃, h₄, h₅, h₆, -⟩ := fresh
      have hunborn : (s.life id').Unborn :=
        ⟨h₁, by simp [life, h₂], h₃, h₄, by simpa [life, List.count_eq_zero] using h₅, h₆⟩
      simp only [lifeEvent, ↓reduceIte]
      refine (if_pos hunborn).trans ?_
      cases create <;> simp [life, hget, hmode, h₂, h₄, Fault.takesEffect, Fault.raises]
    · cases create <;>
        simp [lifeEvent, hid, lifeCycle, life, hget, hmode, Ne.symm hid, Dict.get?_set, Fault.takesEffect,
          Fault.raises]
  | @enqueue id' enq hsub =>
    by_cases hid : id' = id
    · subst hid
      cases enq <;>
        simp [lifeEvent, lifeCycle, life, hsub, Fault.takesEffect, Fault.raises, Dict.get?_erase]
    · cases enq <;>
        simp [lifeEvent, hid, Ne.symm hid, lifeCycle, life, Fault.takesEffect, Fault.raises, Dict.get?_set,
          Dict.get?_erase]
  | @publish id' v hsub hv =>
    by_cases hid : id' = id
    · subst hid
      simp [lifeEvent, lifeCycle, life, hsub, System.broadcast, Dict.get?_erase]
    · simp [lifeEvent, hid, Ne.symm hid, lifeCycle, life, System.broadcast, Dict.get?_erase]
  | idle => rfl
  | @dequeue id' queue hw hq =>
    by_cases hid : id' = id
    · subst hid
      simp [lifeEvent, lifeCycle, life, hw, hq, Worker.stage]
    · simp [lifeEvent, lifeCycle, life, hw, hq, Worker.stage, hid]
  | @drop id' hw ht =>
    by_cases hid : id' = id
    · subst hid
      simp [lifeEvent, lifeCycle, Life.work, life, hw, Worker.stage, ht]
    · simp [lifeEvent, lifeCycle, life, hw, Worker.stage, hid]
  | @mark id' task hw ht =>
    by_cases hid : id' = id
    · subst hid
      simp [lifeEvent, lifeCycle, Life.work, life, hw, Worker.stage, ht]
    · simp [lifeEvent, lifeCycle, life, hw, Worker.stage, hid, Ne.symm hid, Dict.get?_set]
  | @begin id' hw =>
    by_cases hid : id' = id
    · subst hid
      simp [lifeEvent, lifeCycle, Life.work, life, hw, Worker.stage, TaskRepository.get_updateStatus]
    · simp [lifeEvent, lifeCycle, life, hw, Worker.stage, hid, Ne.symm hid, TaskRepository.get_updateStatus]
  | @announce id' v hw hv =>
    by_cases hid : id' = id
    · subst hid
      simp [lifeEvent, lifeCycle, Life.work, life, hw, Worker.stage, System.broadcast]
    · simp [lifeEvent, lifeCycle, life, hw, Worker.stage, hid, System.broadcast]
  | @run id' task outcome hw ht =>
    by_cases hid : id' = id
    · subst hid
      simp [lifeEvent, lifeCycle, life, hw, Worker.stage, ht, System.get?_settle]
    · simp [lifeEvent, lifeCycle, life, hw, Worker.stage, hid, Ne.symm hid, System.get?_settle]
  | @persist id' outcome hw =>
    by_cases hid : id' = id
    · subst hid
      simp [lifeEvent, lifeCycle, Life.work, life, hw, Worker.stage, System.get_persistOutcome,
        System.mode_persistOutcome]
    · simp [lifeEvent, lifeCycle, life, hw, Worker.stage, hid, Ne.symm hid, System.get_persistOutcome,
        System.mode_persistOutcome]
  | @finish id' v hw hv =>
    by_cases hid : id' = id
    · subst hid
      simp [lifeEvent, lifeCycle, Life.work, life, hw, Worker.stage, System.broadcast]
    · simp [lifeEvent, lifeCycle, life, hw, Worker.stage, hid, System.broadcast]
  | subscribe | refuse | next | leave | await | close => rfl
  | startAgain hstarted => simp [lifeEvent, hstarted, lifeCycle]
  | @start faults records hstopped hoff hrec =>
    rw [s.life_start P hstopped faults hrec hoff]
    simp [life, hoff, Worker.stage]
  | stop hw =>
    rcases hw with hw | hw | ⟨id', hw⟩
    · simp [lifeEvent, lifeCycle, life, hw, Worker.stage]
    · simp [lifeEvent, lifeCycle, life, hw, Worker.stage]
    · by_cases hid : id' = id <;> simp [lifeEvent, lifeCycle, life, hw, Worker.stage, hid]
  | @crash keepQueue =>
    cases hm : s.repo.mode <;> cases keepQueue <;>
      simp [lifeEvent, lifeCycle, life, crashStep, Worker.stage, hm, TaskRepository.empty, TaskRepository.get]

/-- The process seen from one task. -/
def lifeOf (id : TaskId) : Projection (node P) (lifeCycle P id) where
  view s := s.life id
  act s e := s.lifeEvent P id e
  sim h := Node.life_step P h id

end Ochestrate
