import Ochestrate.Workers.Node

/-!
# The steps of a process

`NodeStep` lists what a step of `node` can do: one constructor for each branch,
with the facts that the branch has checked and the state it leads to, written
as an update of the fields it changes. `nodeStep` shows that the list is
complete. The views of a process (`Life.lean`, `Streams.lean`) and the
invariants of all its tasks are proved by cases on it.
-/

namespace Ochestrate

/-- `_publish_status` returns and posts this snapshot, which is the current one
if there is anybody to post it to. -/
structure System.Posts (P : Pydantic) (s : System) (id : TaskId) (v : TaskStatusResponse) : Prop where
  returns : s.published P id = some (s.broadcast id v)
  current : (s.subscribers.get? id).getD [] ≠ [] → s.getStatus P id = .ok v

/-- The steps of a process. -/
inductive NodeStep (P : Pydantic) (s : Node) : NodeEvent → Node → Prop
  | submit {id request create repo} (fresh : s.Fresh id) (hrepo : s.repo.create (.ofRequest id request) = .ok repo) :
      NodeStep P s (.submit id request create) { s with
        tasks := s.tasks.set id { taskId := id, request := request }
        repo := if create.takesEffect then repo else s.repo
        submits := if create.raises then s.submits else s.submits.set id .created
        submitted := s.submitted.set id request }
  | enqueue {id enq} (hsub : s.submits.get? id = some .created) : NodeStep P s (.enqueue id enq) { s with
      queue := if enq.takesEffect then s.queue ++ [id] else s.queue
      submits := if enq.raises then s.submits.erase id else s.submits.set id .enqueued
      enqueued := if enq.raises then s.enqueued else s.enqueued ++ [id] }
  | publish {id v} (hsub : s.submits.get? id = some .enqueued) (hv : s.Posts P id v) :
      NodeStep P s (.publish id) { s with
        toSystem := s.broadcast id v
        submits := s.submits.erase id
        accepted := s.accepted ++ [id] }
  | idle (hw : s.worker = .polling) : NodeStep P s .idle s
  | dequeue {id queue} (hw : s.worker = .polling) (hq : s.queue = id :: queue) : NodeStep P s .dequeue
      { s with queue := queue, worker := .holding id .taken }
  | drop {id} (hw : s.worker = .holding id .taken) (ht : s.tasks.get? id = none) : NodeStep P s .work
      { s with worker := .polling }
  | mark {id task} (hw : s.worker = .holding id .taken) (ht : s.tasks.get? id = some task) : NodeStep P s .work
      { s with tasks := s.tasks.set id { task with status := .running }, worker := .holding id .marked }
  | begin {id} (hw : s.worker = .holding id .marked) : NodeStep P s .work
      { s with repo := s.repo.updateStatus id .running none none none, worker := .holding id .started }
  | announce {id v} (hw : s.worker = .holding id .started) (hv : s.Posts P id v) : NodeStep P s .work
      { s with toSystem := s.broadcast id v, worker := .holding id .running }
  | run {id task outcome} (hw : s.worker = .holding id .running) (ht : s.tasks.get? id = some task) :
      NodeStep P s (.run outcome) { s with
        tasks := (s.settle id outcome).tasks
        calls := s.calls ++ [(id, task.request)]
        worker := .holding id (.finished outcome) }
  | persist {id outcome} (hw : s.worker = .holding id (.finished outcome)) : NodeStep P s .work
      { s with repo := (s.persistOutcome id outcome).repo, worker := .holding id .persisted }
  | finish {id v} (hw : s.worker = .holding id .persisted) (hv : s.Posts P id v) : NodeStep P s .work
      { s with toSystem := s.broadcast id v, worker := .polling }
  | subscribe {k id v} (hk : s.streams.get? k = none) (hv : s.getStatus P id = .ok v) :
      NodeStep P s (.subscribe k id) { s with
        subscribers := s.subscribers.set id ((s.subscribers.get? id).getD [] ++ [k])
        queues := s.queues.set k [v]
        streams := s.streams.set k { taskId := id } }
  | refuse {k id exc} (hk : s.streams.get? k = none) (hexc : s.getStatus P id = .error exc) :
      NodeStep P s (.subscribe k id) { s with
        subscribers := s.subscribers.set id ((s.subscribers.get? id).getD [] ++ [k])
        streams := s.streams.set k { taskId := id, phase := .raised } }
  | next {k stream v rest} (hk : s.streams.get? k = some stream) (hq : s.queues.get? k = some (v :: rest))
      (hphase : stream.phase = .waiting) : NodeStep P s (.next k) { s with
        queues := s.queues.set k rest
        streams := s.streams.set k { stream with phase := .yielded, delivered := stream.delivered ++ [v] } }
  | leave {k stream v} (hk : s.streams.get? k = some stream) (hphase : stream.phase = .yielded)
      (hlast : stream.delivered.getLast? = some v) (hterm : v.status.terminal = true) :
      NodeStep P s (.resume k) { s with
        subscribers := (s.unsubscribe k stream.taskId).subscribers
        streams := s.streams.set k { stream with phase := .finished } }
  | await {k stream v} (hk : s.streams.get? k = some stream) (hphase : stream.phase = .yielded)
      (hlast : stream.delivered.getLast? = some v) (hterm : v.status.terminal = false) :
      NodeStep P s (.resume k) { s with streams := s.streams.set k { stream with phase := .waiting } }
  | close {k stream} (hk : s.streams.get? k = some stream)
      (hphase : stream.phase = .waiting ∨ stream.phase = .yielded) : NodeStep P s (.close k) { s with
        subscribers := (s.unsubscribe k stream.taskId).subscribers
        streams := s.streams.set k { stream with phase := .closed } }
  | startAgain {faults records} (hstarted : s.workerTask = true) : NodeStep P s (.start faults records) s
  | start {faults records} (hstopped : s.workerTask = false) (hoff : s.worker = .off)
      (hrec : s.repo.ListsRecoverable records) : NodeStep P s (.start faults records) { s with
        tasks := (s.toSystem.start P faults records).tasks
        queue := (s.toSystem.start P faults records).queue
        stopped := false
        workerTask := true
        worker := .polling }
  | stop (hw : s.worker = .off ∨ s.worker = .polling ∨ ∃ id, s.worker = .holding id .taken) :
      NodeStep P s .stop { s with stopped := true, workerTask := false, worker := .off }
  | crash {keepQueue} : NodeStep P s (.crash keepQueue) (s.crashStep keepQueue)

variable {P : Pydantic}

namespace System

theorem posts_of_published {s s' : System} {id : TaskId} (h : s.published P id = some s') :
    ∃ v, s' = s.broadcast id v ∧ s.Posts P id v := by
  have hcases : ∃ v, s' = s.broadcast id v ∧ ((s.subscribers.get? id).getD [] ≠ [] → s.getStatus P id = .ok v) := by
    unfold published publishStatus at h
    split at h
    · rename_i hpub
      rw [Option.some.injEq] at h
      subst h
      split at hpub
      · rename_i hnone
        cases hpub
        exact ⟨{ taskId := id, status := .failed }, by rw [broadcast, hnone]; rfl, fun hsubs => absurd hnone hsubs⟩
      · cases hsnap : s.getStatus P id with
        | ok v => simp only [hsnap] at hpub; cases hpub; exact ⟨v, rfl, fun _ => rfl⟩
        | error exc => simp only [hsnap] at hpub; cases hpub
    · cases h
  obtain ⟨v, rfl, hv⟩ := hcases
  exact ⟨v, rfl, h, hv⟩

theorem Posts.snapshot {s : System} {id : TaskId} {v : TaskStatusResponse} (h : s.Posts P id v) {task : TaskEnvelope}
    (ht : s.tasks.get? id = some task) : s.broadcast id v = s.broadcast id task.snapshot :=
  Option.some.inj (h.returns.symm.trans (published_eq P ht))

@[simp] theorem broadcast_tasks (s : System) (id : TaskId) (v : TaskStatusResponse) :
    (s.broadcast id v).tasks = s.tasks := rfl

theorem settle_logCall {s : System} {id : TaskId} {task : TaskEnvelope} (h : s.tasks.get? id = some task)
    (request : UnifiedRequest) (outcome : Except Exc UnifiedResponse) :
    (s.logCall id request).settle id outcome =
      { s with tasks := (s.settle id outcome).tasks, calls := s.calls ++ [(id, request)] } := by
  cases outcome <;> simp only [settle, modifyTask, logCall, h, Dict.get?_set_self]

theorem persistOutcome_eq (s : System) (id : TaskId) (outcome : Except Exc UnifiedResponse) :
    s.persistOutcome id outcome = { s with repo := (s.persistOutcome id outcome).repo } := by
  cases outcome <;> rfl

theorem unsubscribe_eq (s : System) (k : SubId) (id : TaskId) :
    s.unsubscribe k id = { s with subscribers := (s.unsubscribe k id).subscribers } := by
  unfold unsubscribe
  split <;> rfl

theorem start_eq_frame (faults : TaskId → Fault Exc) (records : List TaskRecord) {s : System}
    (h : s.workerTask = false) : s.start P faults records = { s with
      tasks := (s.start P faults records).tasks
      queue := (s.start P faults records).queue
      stopped := false
      workerTask := true } := by
  obtain ⟨tasks, queue, heq⟩ := s.start_frame P faults records h
  rw [heq]

end System

theorem nodeStep {s s' : Node} {e : NodeEvent} (h : (node P).step s e = some s') : NodeStep P s e s' := by
  cases e with
  | submit id request create =>
    obtain ⟨fresh, h⟩ := Option.ite_none_right_eq_some.1 h
    obtain ⟨repo, hrepo, heq⟩ := Node.submitStep_eq fresh request create
    exact Option.some.inj h ▸ heq ▸ .submit fresh hrepo
  | enqueue id enq =>
    obtain ⟨hsub, h⟩ := Option.ite_none_right_eq_some.1 h
    have heq : s.enqueueStep id enq = { s with
        queue := if enq.takesEffect then s.queue ++ [id] else s.queue
        submits := if enq.raises then s.submits.erase id else s.submits.set id .enqueued
        enqueued := if enq.raises then s.enqueued else s.enqueued ++ [id] } := by
      cases enq <;> rfl
    exact Option.some.inj h ▸ heq ▸ .enqueue hsub
  | publish id =>
    obtain ⟨hsub, h⟩ := Option.ite_none_right_eq_some.1 h
    obtain ⟨sys, hsys, h⟩ := Option.map_eq_some_iff.1 h
    obtain ⟨v, rfl, hv⟩ := System.posts_of_published hsys
    exact h ▸ .publish hsub hv
  | idle =>
    simp only [node] at h
    split at h
    · rename_i hw
      exact Option.some.inj h ▸ .idle hw
    · cases h
  | dequeue =>
    simp only [node] at h
    split at h
    · rename_i id queue hw hq
      have heq : s.move s.pop (.holding id .taken) = { s with queue := queue, worker := .holding id .taken } := by
        simp only [Node.move, System.pop, hq, List.tail_cons]
      exact Option.some.inj h ▸ heq ▸ .dequeue hw hq
    · cases h
  | work =>
    simp only [node, Node.work] at h
    split at h
    · rename_i id hw
      split at h
      · rename_i ht
        exact Option.some.inj h ▸ .drop hw ht
      · rename_i task ht
        have heq : s.modifyTask id ({ · with status := .running }) =
            { s.toSystem with tasks := s.tasks.set id { task with status := .running } } := by
          simp only [System.modifyTask, ht]
        rw [← Option.some.inj h, heq]
        exact .mark hw ht
    · rename_i id hw
      exact Option.some.inj h ▸ .begin hw
    · rename_i id hw
      obtain ⟨sys, hsys, h⟩ := Option.map_eq_some_iff.1 h
      obtain ⟨v, rfl, hv⟩ := System.posts_of_published hsys
      exact h ▸ .announce hw hv
    · rename_i id outcome hw
      rw [← Option.some.inj h, s.persistOutcome_eq]
      exact .persist hw
    · rename_i id hw
      obtain ⟨sys, hsys, h⟩ := Option.map_eq_some_iff.1 h
      obtain ⟨v, rfl, hv⟩ := System.posts_of_published hsys
      exact h ▸ .finish hw hv
    · cases h
  | run outcome =>
    simp only [node, Node.runStep] at h
    split at h
    · rename_i id hw
      obtain ⟨task, ht, h⟩ := Option.map_eq_some_iff.1 h
      rw [← h, System.settle_logCall ht]
      exact .run hw ht
    · cases h
  | subscribe k id =>
    obtain ⟨hk, h⟩ := Option.ite_none_right_eq_some.1 h
    rw [← Option.some.inj h, Node.subscribeStep]
    split
    · rename_i v hv
      exact .subscribe hk hv
    · rename_i exc hexc
      exact .refuse hk hexc
  | next k =>
    simp only [node, Node.nextStep] at h
    split at h
    · rename_i stream v rest hk hq
      obtain ⟨hphase, h⟩ := Option.ite_none_right_eq_some.1 h
      exact Option.some.inj h ▸ .next hk hq hphase
    · cases h
  | resume k =>
    simp only [node, Node.resumeStep] at h
    split at h
    · rename_i stream hk
      split at h
      · rename_i v hphase hlast
        split at h
        · rename_i hterm
          rw [← Option.some.inj h, s.unsubscribe_eq]
          exact .leave hk hphase hlast hterm
        · rename_i hterm
          exact Option.some.inj h ▸ .await hk hphase hlast (Bool.not_eq_true _ ▸ hterm)
      · cases h
    · cases h
  | close k =>
    simp only [node, Node.closeStep] at h
    split at h
    · rename_i stream hk
      obtain ⟨hphase, h⟩ := Option.ite_none_right_eq_some.1 h
      rw [← Option.some.inj h, s.unsubscribe_eq]
      exact .close hk hphase
    · cases h
  | start faults records =>
    simp only [node] at h
    split at h
    · rename_i hstarted
      exact Option.some.inj h ▸ .startAgain hstarted
    · rename_i hstopped hoff
      obtain ⟨hrec, h⟩ := Option.ite_none_right_eq_some.1 h
      rw [← Option.some.inj h, System.start_eq_frame faults records hstopped]
      exact .start hstopped hoff hrec
    · cases h
  | stop =>
    simp only [node] at h
    split at h
    · rename_i hw
      exact Option.some.inj h ▸ .stop (.inl hw)
    · rename_i hw
      exact Option.some.inj h ▸ .stop (.inr (.inl hw))
    · rename_i id hw
      exact Option.some.inj h ▸ .stop (.inr (.inr ⟨id, hw⟩))
    · cases h
  | crash keepQueue => exact Option.some.inj h ▸ .crash

end Ochestrate
