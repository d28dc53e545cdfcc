import Ochestrate.Framework.Machine
import Ochestrate.Workers.Manager

/-!
# The task manager when its collaborators raise

Every call to the queue, the repository and the orchestrator may raise, before
or after its effect. For a publication this makes no difference: a task that
is in memory has a snapshot (`publishStatus_eq`).

`submit` writes the envelope first and never takes it back: whenever creating
the row or enqueuing raises, the caller sees the exception and the task stays
in memory as `queued` (`submit_not_atomic`).

Of the calls of one iteration, three decide how it ends. `update_status` to
`running` is before the `try`, and `update_status` to `failed` is in the
handler, so an exception of either leaves the loop. `workerIteration_settles_iff`
is the exact condition for one iteration, `loop_safe_iff` for a run of the
loop among submissions, subscriptions, restarts and stops. A loop that an
exception left is never launched again: `start` finds `_worker_task` set, and
`stop` re-raises the exception before it would reset it.
-/

namespace Ochestrate

variable (P : Pydantic)

/-- A task in memory is published, whether it has subscribers or not. -/
theorem publishStatus_eq {s : System} {id : TaskId} {task : TaskEnvelope} (h : s.tasks.get? id = some task) :
    publishStatus P id s = .ok ⟨⟩ (s.broadcast id task.snapshot) := by
  unfold publishStatus
  split
  · rename_i hs
    simp only [System.broadcast, hs, System.putAll, List.foldl_nil]
  · simp only [System.getStatus, h]

/-! ## `submit` -/

/-- What a rejected submission must leave as it was. -/
def SameStores (s s' : System) : Prop := s'.tasks = s.tasks ∧ s'.repo = s.repo ∧ s'.queue = s.queue

/-- If this call of `submit` raises, it changes none of the three stores. -/
def SubmitAtomic (s : System) (id : TaskId) (request : UnifiedRequest) (create enq : Fault Exc) : Prop :=
  ∀ exc s', submit P id request create enq s = .error exc s' → SameStores s s'

theorem createRecord_tasks (f : Fault Exc) (task : TaskRecord) (s : System) :
    (finalState (createRecord f task s)).tasks = s.tasks := by
  unfold createRecord
  cases s.repo.create task with
  | ok repo => cases f <;> rfl
  | error exc => cases f <;> rfl

theorem createRecord_raises {f : Fault Exc} (h : f.raises = true) (task : TaskRecord) (s : System) :
    ∃ exc s', createRecord f task s = .error exc s' := by
  unfold createRecord
  cases s.repo.create task with
  | ok repo =>
    obtain ⟨exc, s', hs', -⟩ := faulty_raises (s := s) h fun s => { s with repo := repo }
    exact ⟨exc, s', hs'⟩
  | error exc =>
    cases f with
    | none => cases h
    | before exc' => exact ⟨exc', s, rfl⟩
    | after _ => exact ⟨exc, s, rfl⟩

theorem enqueue_tasks (f : Fault Exc) (id : TaskId) (s : System) :
    (finalState (enqueue f id s)).tasks = s.tasks := by
  cases f <;> rfl

/-- A submission that raises has put its envelope into memory. -/
theorem submit_raises (s : System) (id : TaskId) (request : UnifiedRequest) {create enq : Fault Exc}
    (h : create.raises = true ∨ enq.raises = true) :
    ∃ exc s', submit P id request create enq s = .error exc s' ∧
      s'.tasks.get? id = some { taskId := id, request := request } := by
  have hset : (s.setTask { taskId := id, request := request }).tasks.get? id =
      some { taskId := id, request := request } := Dict.get?_set_self ..
  unfold submit
  rw [modify_bind]
  generalize s.setTask { taskId := id, request := request } = s₁ at hset
  have hcreate := createRecord_tasks create (.ofRequest id request) s₁
  cases hc : createRecord create (.ofRequest id request) s₁ with
  | error exc s₂ =>
    rw [hc, finalState_error] at hcreate
    exact ⟨exc, s₂, bind_error hc _, hcreate ▸ hset⟩
  | ok u s₂ =>
    rw [hc, finalState_ok] at hcreate
    have henq : enq.raises = true := h.resolve_left fun hr => by
      obtain ⟨exc, s', hs'⟩ := createRecord_raises hr (.ofRequest id request) s₁
      rw [hc] at hs'; cases hs'
    obtain ⟨exc, s₃, hs₃, -⟩ := faulty_raises (s := s₂) henq fun s => s.push id
    have htasks := enqueue_tasks enq id s₂
    rw [enqueue, hs₃, finalState_error] at htasks
    rw [bind_ok hc]
    exact ⟨exc, s₃, bind_error (x := enqueue enq id) hs₃ _, by rw [htasks, hcreate]; exact hset⟩

/-- Whatever the request and the fault, a submission whose call to the
repository or the queue raises is not undone. -/
theorem submit_not_atomic (s : System) (id : TaskId) (request : UnifiedRequest) (create enq : Fault Exc)
    (hid : s.tasks.get? id = none) (h : create.raises = true ∨ enq.raises = true) :
    ¬ SubmitAtomic P s id request create enq := by
  intro hatomic
  obtain ⟨exc, s', hs', htask⟩ := submit_raises P s id request h
  rw [(hatomic exc s' hs').1, hid] at htask
  cases htask

/-- A process before its first call. -/
def System.init (mode : RepoMode) : System where
  queue := []
  repo := .empty mode

/-- A request with the default policy. -/
def UnifiedRequest.sample (input : String) (h : input ≠ "") : UnifiedRequest where
  sessionId := "session"
  input := input
  input_ne := h

def hello : UnifiedRequest := .sample "hello" (by decide)

/-- The repository is down: the rejected task stays `queued` in memory, without
a row and without a place in the queue. -/
theorem submit_rejected_stays_queued :
    ¬ SubmitAtomic .strict (.init .memory) "t" hello (.before ⟨.other, "down"⟩) .none := by
  intro h
  have htasks := (h ⟨.other, "down"⟩ _ rfl).1
  exact absurd (congrArg (fun d => (d.get? "t").isSome) htasks) (by decide)

/-- `submit_not_atomic` when the queue is down. -/
theorem submit_not_atomic_enqueue :
    ¬ SubmitAtomic .strict (.init .database) "t" hello .none (.before ⟨.other, "down"⟩) :=
  submit_not_atomic .strict (.init .database) "t" hello .none _ rfl (.inr rfl)

/-! ## One iteration of the worker loop -/

/-- The id in `_tasks` that an iteration takes from the queue. -/
def Turn.taken (t : Turn) (s : System) : Option TaskId :=
  match t.dequeue, s.queue with
  | .takes, id :: _ => if (s.tasks.get? id).isSome then some id else none
  | _, _ => none

/-- The calls on which the end of an iteration depends: `update_status` to
`running` returns, and where the handler runs, `update_status` to `failed`
does. -/
def Turn.harmless (t : Turn) : Bool :=
  !t.running.raises && (!t.failed.raises || (t.run.isOk && !t.completed.raises))

/-- How a statement ends: whether it returns, and the status in which it leaves
a task. -/
def EndsIn (id : TaskId) (ok : Bool) (status : TaskStatus) (r : EStateM.Result Exc System PUnit) : Prop :=
  returned r = ok ∧ ((finalState r).tasks.get? id).map (·.status) = some status

/-- The iteration returns, and the envelope it took is completed or failed. -/
def Settles (id : TaskId) (r : EStateM.Result Exc System PUnit) : Prop :=
  returned r = true ∧ ∃ status, ((finalState r).tasks.get? id).map (·.status) = some status ∧
    status.terminal = true

theorem EndsIn.settles_iff {id : TaskId} {ok : Bool} {status : TaskStatus}
    {r : EStateM.Result Exc System PUnit} (h : EndsIn id ok status r) :
    Settles id r ↔ ok = true ∧ status.terminal = true := by
  constructor
  · rintro ⟨hr, status', hs, ht⟩
    rw [h.2, Option.some.injEq] at hs
    exact ⟨h.1 ▸ hr, hs ▸ ht⟩
  · rintro ⟨ho, ht⟩
    exact ⟨h.1.trans ho, status, h.2, ht⟩

theorem updateStatus_returns {f : Fault Exc} (h : f.raises = false) (s : System) (id : TaskId)
    (status : TaskStatus) (t : Option String) (j : Option Json) (e : Option String) :
    updateStatus f id status t j e s = .ok ⟨⟩ (s.persist id status t j e) :=
  faulty_returns h _

theorem updateStatus_raises {f : Fault Exc} (h : f.raises = true) (s : System) (id : TaskId)
    (status : TaskStatus) (t : Option String) (j : Option Json) (e : Option String) :
    ∃ exc s', updateStatus f id status t j e s = .error exc s' ∧ s'.tasks = s.tasks := by
  obtain ⟨exc, s', hs', hor⟩ := faulty_raises (s := s) h fun s => s.persist id status t j e
  exact ⟨exc, s', hs', by rcases hor with rfl | rfl <;> rfl⟩

/-- The statements that follow a change of status: persist, then publish. -/
theorem persistPublish_endsIn {f : Fault Exc} {s : System} {id : TaskId} {task : TaskEnvelope}
    (h : s.tasks.get? id = some task) (status : TaskStatus) (t : Option String) (j : Option Json)
    (e : Option String) :
    EndsIn id (!f.raises) task.status ((updateStatus f id status t j e >>= fun _ => publishStatus P id) s) := by
  cases hf : f.raises with
  | false =>
    have hp : (s.persist id status t j e).tasks.get? id = some task := h
    rw [bind_ok (updateStatus_returns hf s id status t j e), publishStatus_eq P hp]
    exact ⟨rfl, congrArg (Option.map _) h⟩
  | true =>
    obtain ⟨exc, s', hs', htasks⟩ := updateStatus_raises hf s id status t j e
    rw [bind_error hs']
    exact ⟨rfl, by rw [finalState_error, htasks, h]; rfl⟩

/-- The handler leaves the task failed; it raises if `update_status` does. -/
theorem failTask_endsIn {t : Turn} {s : System} {id : TaskId} {task : TaskEnvelope}
    (h : s.tasks.get? id = some task) (exc : Exc) :
    EndsIn id (!t.failed.raises) .failed (failTask P t id exc s) := by
  unfold failTask
  rw [modify_bind, modify_bind]
  have hget : ((s.modifyTask id ({ · with status := .failed })).modifyTask id
      ({ · with error := some exc.message })).tasks.get? id =
        some { task with status := .failed, error := some exc.message } := by
    simp only [System.get?_modifyTask, ↓reduceIte, h, Option.map_some]
  exact persistPublish_endsIn P hget ..

/-- The `try` block returns with the task completed, or raises with the task
still in memory. -/
theorem completeTask_cases (t : Turn) {s : System} {id : TaskId} {task : TaskEnvelope}
    (h : s.tasks.get? id = some task) (request : UnifiedRequest) :
    ((t.run.isOk && !t.completed.raises) = true ∧ ∃ s', completeTask P t id request s = .ok ⟨⟩ s' ∧
      (s'.tasks.get? id).map (·.status) = some .completed) ∨
    ((t.run.isOk && !t.completed.raises) = false ∧ ∃ exc s' task', completeTask P t id request s = .error exc s' ∧
      s'.tasks.get? id = some task') := by
  unfold completeTask
  cases hr : t.run with
  | error exc =>
    have hcall : orchestratorRun id request (.error exc) s = .error exc (s.logCall id request) := rfl
    exact .inr ⟨rfl, exc, _, task, bind_error hcall _, h⟩
  | ok result =>
    have hcall : orchestratorRun id request (.ok result) s = .ok result (s.logCall id request) := rfl
    rw [bind_ok hcall, modify_bind, modify_bind]
    have hget : (((s.logCall id request).modifyTask id ({ · with result := some result })).modifyTask id
        ({ · with status := .completed })).tasks.get? id =
          some { task with result := some result, status := .completed } := by
      simp only [System.get?_modifyTask, ↓reduceIte, System.logCall, h, Option.map_some]
    have hend := persistPublish_endsIn P (f := t.completed) hget .completed (some result.traceId)
      (some result.modelDump) none
    generalize (updateStatus t.completed id .completed (some result.traceId) (some result.modelDump) none >>= _) _
      = r at hend ⊢
    cases r with
    | ok u s' =>
      refine .inl ⟨?_, s', rfl, hend.2⟩
      exact hend.1.symm
    | error exc s' =>
      obtain ⟨task', htask', -⟩ := Option.map_eq_some_iff.1 hend.2
      exact .inr ⟨hend.1.symm, exc, s', task', rfl, htask'⟩

/-- How the execution of a task in memory ends. -/
theorem executeTask_settles_iff (t : Turn) {s : System} {id : TaskId} {envelope : TaskEnvelope}
    (h : s.tasks.get? id = some envelope) :
    Settles id (executeTask P t id envelope s) ↔ t.harmless = true := by
  unfold executeTask
  rw [modify_bind]
  have h₁ : (s.modifyTask id ({ · with status := .running })).tasks.get? id =
      some { envelope with status := .running } := by
    simp only [System.get?_modifyTask, ↓reduceIte, h, Option.map_some]
  generalize s.modifyTask id ({ · with status := .running }) = s₁ at h₁
  cases hrun : t.running.raises with
  | true =>
    obtain ⟨exc, s₂, hs₂, -⟩ := updateStatus_raises hrun s₁ id .running none none none
    rw [bind_error hs₂]
    simp [Settles, Turn.harmless, hrun]
  | false =>
    have h₂ : (s₁.persist id .running).tasks.get? id = some { envelope with status := .running } := h₁
    rw [bind_ok (updateStatus_returns hrun ..), bind_ok (publishStatus_eq P h₂)]
    have h₃ : ((s₁.persist id .running).broadcast id
        (TaskEnvelope.snapshot { envelope with status := .running })).tasks.get? id =
        some { envelope with status := .running } := h₁
    generalize (s₁.persist id .running).broadcast id _ = s₃ at h₃
    rcases completeTask_cases P t h₃ envelope.request with ⟨hok, s₄, hs₄, hst⟩ | ⟨hok, exc, s₄, task', hs₄, htask⟩
    · rw [tryCatch_ok hs₄]
      simp only [Turn.harmless, hrun, hok, Bool.or_true, Bool.not_false, Bool.and_true, iff_true]
      exact ⟨rfl, .completed, hst, rfl⟩
    · rw [tryCatch_error hs₄, (failTask_endsIn P htask exc).settles_iff]
      simp [Turn.harmless, hrun, hok, TaskStatus.terminal]

/-- An iteration that takes no task of this process returns. -/
theorem workerIteration_untaken {t : Turn} {s : System} (h : t.taken s = none) :
    returned (workerIteration P t s) = true := by
  obtain ⟨d, _, _, _, _⟩ := t
  cases d with
  | raises exc => rfl
  | timesOut => rfl
  | takes =>
    cases hq : s.queue with
    | nil =>
      have hd : tryCatch (dequeue .takes) (fun _ => return none) s = .ok none s :=
        tryCatch_ok (by simp only [dequeue, hq]) _
      unfold workerIteration
      rw [bind_ok hd]
      rfl
    | cons id queue =>
      have hd : tryCatch (dequeue .takes) (fun _ => return none) s = .ok (some id) s.pop :=
        tryCatch_ok (by simp only [dequeue, hq]) _
      have hno : s.pop.tasks.get? id = none := by simpa [Turn.taken, hq, System.pop] using h
      have hget : (get : Script System) s.pop = .ok s.pop s.pop := rfl
      unfold workerIteration
      rw [bind_ok hd]
      simp only
      rw [bind_ok hget]
      simp only [hno]
      rfl

/-- An iteration that takes a task executes its envelope. -/
theorem workerIteration_taken {t : Turn} {s : System} {id : TaskId} (h : t.taken s = some id) :
    ∃ envelope, s.tasks.get? id = some envelope ∧
      workerIteration P t s = executeTask P t id envelope s.pop := by
  unfold Turn.taken at h
  split at h
  · rename_i id' queue hdeq hq
    split at h
    · rename_i hsome
      rw [Option.some.injEq] at h
      subst h
      obtain ⟨envelope, henv⟩ := Option.isSome_iff_exists.1 hsome
      have hd : tryCatch (dequeue t.dequeue) (fun _ => return none) s = .ok (some id') s.pop :=
        tryCatch_ok (by simp only [hdeq, dequeue, hq]) _
      have hget : (get : Script System) s.pop = .ok s.pop s.pop := rfl
      have hpop : s.pop.tasks.get? id' = some envelope := henv
      refine ⟨envelope, henv, ?_⟩
      unfold workerIteration
      rw [bind_ok hd]
      simp only
      rw [bind_ok hget]
      simp only [hpop]
    · cases h
  · cases h

/-- One iteration returns, and settles the task it takes, exactly if it takes
no task of this process or its calls are harmless. -/
theorem workerIteration_settles_iff (t : Turn) (s : System) :
    (returned (workerIteration P t s) = true ∧ ∀ id, t.taken s = some id → Settles id (workerIteration P t s)) ↔
      ((t.taken s).isSome = true → t.harmless = true) := by
  cases htaken : t.taken s with
  | none => simp [workerIteration_untaken P htaken]
  | some id =>
    obtain ⟨envelope, henv, heq⟩ := workerIteration_taken P htaken
    have hiff := executeTask_settles_iff P t (s := s.pop) henv
    rw [heq]
    simp only [Option.some.injEq, forall_eq', Option.isSome_some, forall_const]
    rw [← hiff]
    exact ⟨And.right, fun hs => ⟨hs.1, hs⟩⟩

/-! ## The loop over time -/

/-- A process and its worker loop. The loop runs while `workerTask` is set and
no exception has left it. `ended` lists the iterations that took a task of the
process, each with the status in which it left the envelope. -/
structure Loop where
  sys : System
  died : Bool := false
  ended : List (TaskId × Option TaskStatus) := []

inductive LoopEvent
  | iterate (t : Turn)
  | submit (id : TaskId) (request : UnifiedRequest) (create enq : Fault Exc)
  | subscribe (k : SubId) (id : TaskId) (snapshot : TaskStatusResponse)
  | unsubscribe (k : SubId) (id : TaskId)
  | start (faults : TaskId → Fault Exc) (records : List TaskRecord)
  | stop

/-- One iteration of the loop. -/
def Loop.iterate (l : Loop) (t : Turn) : Loop :=
  let r := workerIteration P t l.sys
  { sys := finalState r
    died := !returned r
    ended := l.ended ++
      (t.taken l.sys).toList.map fun id => (id, ((finalState r).tasks.get? id).map (·.status)) }

/-- `stop`. Awaiting a loop that an exception left re-raises it, before
`_worker_task` is reset. -/
def Loop.stop (l : Loop) : Loop :=
  if l.died then { l with sys := { l.sys with stopped := true } } else { l with sys := l.sys.stop }

def loop : Machine Loop LoopEvent where
  step l
    | .iterate t => if l.sys.workerTask ∧ ¬ l.died ∧ ¬ l.sys.stopped then some (l.iterate P t) else none
    | .submit id request create enq => some { l with sys := finalState (submit P id request create enq l.sys) }
    | .subscribe k id snapshot => some { l with sys := l.sys.subscribe k id snapshot }
    | .unsubscribe k id => some { l with sys := l.sys.unsubscribe k id }
    | .start faults records =>
      if l.sys.repo.ListsRecoverable records then some { l with sys := l.sys.start P faults records } else none
    | .stop => some l.stop

/-- The loop has not ended but by `stop`, and every iteration that took a task
left it completed or failed. -/
def Loop.Safe (l : Loop) : Prop :=
  l.died = false ∧ ∀ p ∈ l.ended, ∃ status, p.2 = some status ∧ status.terminal = true

/-- The condition on an iteration: if it takes a task of the process, the calls
on which its end depends return. -/
def HarmlessTurn (l : Loop) : LoopEvent → Prop
  | .iterate t => (t.taken l.sys).isSome = true → t.harmless = true
  | _ => True

theorem Loop.iterate_safe_iff {l : Loop} (hd : l.died = false) (t : Turn) :
    (l.iterate P t).Safe ↔ l.Safe ∧ ((t.taken l.sys).isSome = true → t.harmless = true) := by
  rw [← workerIteration_settles_iff P t l.sys]
  simp only [Loop.iterate, Loop.Safe, hd, true_and, List.mem_append, or_imp, forall_and, Bool.not_eq_false']
  constructor
  · rintro ⟨hr, hl, hn⟩
    exact ⟨hl, hr, fun id hid => ⟨hr, hn _ (List.mem_map_of_mem (Option.mem_toList.2 hid))⟩⟩
  · rintro ⟨hl, hr, hs⟩
    refine ⟨hr, hl, fun p hp => ?_⟩
    obtain ⟨id, hid, rfl⟩ := List.mem_map.1 hp
    exact (hs id (Option.mem_toList.1 hid)).2

theorem loop_step_safe_iff {l l' : Loop} {e : LoopEvent} (h : (loop P).step l e = some l') :
    l'.Safe ↔ l.Safe ∧ HarmlessTurn l e := by
  cases e with
  | iterate t =>
    obtain ⟨⟨-, hd, -⟩, h⟩ := Option.ite_none_right_eq_some.1 h
    rw [← Option.some.inj h]
    exact l.iterate_safe_iff P (by simpa using hd) t
  | start faults records =>
    obtain ⟨-, h⟩ := Option.ite_none_right_eq_some.1 h
    rw [← Option.some.inj h]
    simp [Loop.Safe, HarmlessTurn]
  | stop =>
    rw [← Option.some.inj h]
    unfold Loop.stop
    split <;> simp [Loop.Safe, HarmlessTurn]
  | submit id request create enq => rw [← Option.some.inj h]; simp [Loop.Safe, HarmlessTurn]
  | subscribe k id snapshot => rw [← Option.some.inj h]; simp [Loop.Safe, HarmlessTurn]
  | unsubscribe k id => rw [← Option.some.inj h]; simp [Loop.Safe, HarmlessTurn]

/-- A run of the loop ends by `stop` only, and settles every task it takes,
exactly if its iterations are harmless. -/
theorem loop_safe_iff {l l' : Loop} {es : List LoopEvent} (h : (loop P).run l es = some l') (hs : l.Safe) :
    l'.Safe ↔ (loop P).Meets HarmlessTurn l es := by
  rw [(loop P).run_iff (loop_step_safe_iff P) h, and_iff_right hs]

/-- A loop that an exception left stays so, whatever `start` and `stop` do. -/
theorem loop_died_stays {l l' : Loop} {es : List LoopEvent} (h : (loop P).run l es = some l')
    (hd : l.died = true) : l'.died = true ∧ l'.ended = l.ended := by
  refine (loop P).run_stays (I := fun l' => l'.died = true ∧ l'.ended = l.ended)
    (fun {l₁ e l₂} _ hstep hi => ?_) h ⟨hd, rfl⟩
  cases e with
  | iterate t =>
    obtain ⟨⟨-, hno, -⟩, -⟩ := Option.ite_none_right_eq_some.1 hstep
    exact absurd hi.1 hno
  | start faults records =>
    obtain ⟨-, hstep⟩ := Option.ite_none_right_eq_some.1 hstep
    rw [← Option.some.inj hstep]
    exact hi
  | stop =>
    rw [← Option.some.inj hstep, Loop.stop, if_pos hi.1]
    exact hi
  | submit id request create enq => rw [← Option.some.inj hstep]; exact hi
  | subscribe k id snapshot => rw [← Option.some.inj hstep]; exact hi
  | unsubscribe k id => rw [← Option.some.inj hstep]; exact hi

/-- A started process. -/
def Loop.init (mode : RepoMode) : Loop where sys := { System.init mode with workerTask := true }

/-- The repository is down when the worker marks the task running: the loop
ends without `stop`, the task stays `running`. -/
def diesRunning : List LoopEvent :=
  [.submit "t" hello .none .none,
    .iterate { running := .before ⟨.other, "down"⟩, run := .error ⟨.other, "unused"⟩ }]

theorem loop_dies :
    ∃ l', (loop .strict).run (.init .memory) diesRunning = some l' ∧ l'.died = true ∧ l'.sys.stopped = false ∧
      l'.ended = [("t", some .running)] ∧ ¬ l'.Safe :=
  ⟨_, rfl, rfl, rfl, rfl, fun h => absurd h.1 (by decide)⟩

/-- `loop_safe_iff` on a run in which the orchestrator and the repository fail
harmlessly. -/
def failsHarmlessly : List LoopEvent :=
  [.submit "t" hello .none .none,
    .iterate { dequeue := .raises ⟨.other, "down"⟩, run := .error ⟨.other, "unused"⟩ },
    .iterate { run := .error ⟨.valueError, "no model"⟩ }, .stop]

theorem loop_safe_failsHarmlessly :
    ((((loop .strict).run (.init .memory) failsHarmlessly).getD (.init .memory)).Safe ↔
      (loop .strict).Meets HarmlessTurn (.init .memory) failsHarmlessly) :=
  loop_safe_iff .strict rfl ⟨rfl, fun _ h => nomatch h⟩

end Ochestrate
