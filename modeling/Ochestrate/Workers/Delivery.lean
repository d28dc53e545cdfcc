import Ochestrate.Workers.Placement

/-!
# Every task is executed once, in order

A process that starts once over empty stores and meets no fault: a task whose
submission returned waits in the queue, is being executed, or is completed or
failed and gone from the queue (`delivery`). `Life.Tracked` is the invariant of
one task: on top of `Placed`, its envelope holds the request it was submitted
with, and it was run with this request once if nobody has to work for it any
more, and not at all before.

The order is a property of all tasks together. `Node.InOrder` says that the ids
in the order of `enqueue` are those that were run, then the one the worker has
taken, then the queue; so the runs follow the order of `enqueue`.
-/

namespace Ochestrate

/-- A step of a process that meets no fault and is not stopped or restarted. -/
def LifeEvent.undisturbed : LifeEvent → Bool
  | .submit _ create => create = .none
  | .enqueue enq => enq = .none
  | .recover _ | .stop | .crash _ => false
  | _ => true

/-- A step of a process that meets no fault and is not stopped or restarted. -/
def NodeEvent.undisturbed : NodeEvent → Bool
  | .submit _ _ create => create = .none
  | .enqueue _ enq => enq = .none
  | .start .. | .stop | .crash _ => false
  | _ => true

namespace Life

/-- The orchestrator has been called for the task's claim. -/
def executed (l : Life) : Bool :=
  match l.stage with
  | some (.finished _) | some .persisted => true
  | none => l.claims = 0
  | _ => false

/-- What is known of a submitted task besides its place. -/
structure TrackedAs (l : Life) (request : UnifiedRequest) (task : TaskEnvelope) : Prop where
  request_eq : task.request = request
  runs_eq : l.runs = if l.executed then [request] else []
  settled : l.executed = true → task.status.terminal = true
  accepted : l.accepted = true → l.submission = none

/-- A submitted task is tracked, and nothing is known of any other. -/
def Tracked (l : Life) : Prop :=
  match l.submitted with
  | none => l.submission = none ∧ l.envelope = none ∧ l.waiting = 0 ∧ l.stage = none ∧ l.runs = [] ∧
      l.accepted = false
  | some request => ∃ task, l.envelope = some task ∧ l.TrackedAs request task

variable {l : Life} {request : UnifiedRequest} {task : TaskEnvelope}

theorem Tracked.of_none (h : l.Tracked) (hs : l.submitted = none) :
    l.submission = none ∧ l.envelope = none ∧ l.waiting = 0 ∧ l.stage = none ∧ l.runs = [] ∧
      l.accepted = false := by
  rwa [Tracked, hs] at h

/-- A task in memory is a submitted one. -/
theorem Tracked.of_known (h : l.Tracked) (hl : l.envelope = some task) :
    ∃ request, l.submitted = some request ∧ l.TrackedAs request task := by
  cases hs : l.submitted with
  | none => rw [(h.of_none hs).2.1] at hl; cases hl
  | some request =>
    rw [Tracked, hs] at h
    obtain ⟨task', hl', ht⟩ := h
    rw [hl, Option.some.injEq] at hl'
    exact ⟨request, rfl, hl' ▸ ht⟩

theorem tracked_of_some (hs : l.submitted = some request) (hl : l.envelope = some task)
    (h : l.TrackedAs request task) : l.Tracked := by
  rw [Tracked, hs]; exact ⟨task, hl, h⟩

/-- A task that has a claim on the worker, or on which the worker works, is in
memory. -/
theorem Tracked.known (h : l.Tracked) (hc : l.claims ≠ 0 ∨ l.submission ≠ none) :
    ∃ task, l.envelope = some task := by
  cases hs : l.submitted with
  | none =>
    obtain ⟨hsub, -, hwait, hstage, -, -⟩ := h.of_none hs
    simp [claims, hsub, hwait, hstage] at hc
  | some request => rw [Tracked, hs] at h; exact ⟨_, h.choose_spec.1⟩

end Life

variable {P : Pydantic} {id : TaskId}

/-- An undisturbed step keeps a task tracked. -/
theorem tracked_step {l l' : Life} {e : LifeEvent} (h : (lifeCycle P id).step l e = some l')
    (he : e.undisturbed = true) (hp : l.Placed) (ht : l.Tracked) : l'.Tracked := by
  -- a stage is a claim, so its task is in memory
  have hknown : ∀ stage, l.stage = some stage → ∃ task request, l.envelope = some task ∧
      l.submitted = some request ∧ l.TrackedAs request task := by
    intro stage hs
    obtain ⟨task, hl⟩ := ht.known (.inl (by rw [Life.claims_of_stage hs]; omega))
    obtain ⟨request, hreq, htask⟩ := ht.of_known hl
    exact ⟨task, request, hl, hreq, htask⟩
  cases lifeStep h with
  | @submit request create unborn =>
    obtain ⟨hs, -, -, -, hwait, hstage⟩ := unborn
    rw [Option.isNone_iff_eq_none] at hstage
    obtain ⟨-, -, -, -, hruns, hacc⟩ := ht.of_none hs
    have hcreate : create = .none := by simpa [LifeEvent.undisturbed] using he
    subst hcreate
    refine Life.tracked_of_some rfl rfl ⟨rfl, ?_, ?_, by simp [hacc]⟩ <;>
      simp [Life.executed, Life.claims, hstage, hwait, Fault.raises, hruns]
  | @enqueue enq hsub =>
    have henq : enq = .none := by simpa [LifeEvent.undisturbed] using he
    subst henq
    obtain ⟨task, hl, hstage, hwait, -⟩ := hp.of_created hsub
    obtain ⟨request, hs, htask⟩ := ht.of_known hl
    have hruns := htask.runs_eq
    simp only [Life.executed, Life.claims, hstage, hsub, hwait] at hruns
    refine Life.tracked_of_some hs hl ⟨htask.request_eq, ?_, ?_, fun ha => ?_⟩
    · simpa [Life.executed, Life.claims, hstage, hwait, Fault.raises, Fault.takesEffect] using hruns
    · simp [Life.executed, Life.claims, hstage, hwait, Fault.raises, Fault.takesEffect]
    · exact absurd (hsub.symm.trans (htask.accepted ha)) (by simp)
  | publish hsub =>
    obtain ⟨task, hl⟩ := ht.known (.inr (by simp [hsub]))
    obtain ⟨request, hs, htask⟩ := ht.of_known hl
    have heq : Life.executed { l with submission := none, accepted := true } = l.executed := by
      simp [Life.executed, Life.claims, hsub]
    exact Life.tracked_of_some hs hl ⟨htask.request_eq, heq ▸ htask.runs_eq, heq ▸ htask.settled, fun _ => rfl⟩
  | dequeue hstage hwait =>
    obtain ⟨task, hl⟩ := ht.known (.inl (by rw [Life.claims_of_idle hstage]; omega))
    obtain ⟨request, hs, htask⟩ := ht.of_known hl
    obtain ⟨hone, hsub, -, -⟩ := hp.of_waiting hl hwait
    have hruns := htask.runs_eq
    simp [Life.executed, Life.claims, hstage, hone] at hruns
    exact Life.tracked_of_some hs hl ⟨htask.request_eq, hruns, by rintro ⟨⟩, htask.accepted⟩
  | drop hstage hl =>
    obtain ⟨task, -, hl', -⟩ := hknown _ hstage
    rw [hl] at hl'; cases hl'
  | mark hstage hl =>
    obtain ⟨request, hs, htask⟩ := ht.of_known hl
    have hruns := htask.runs_eq
    rw [Life.executed, hstage] at hruns
    exact Life.tracked_of_some hs rfl ⟨htask.request_eq, hruns, by rintro ⟨⟩, htask.accepted⟩
  | begin hstage | announce hstage =>
    obtain ⟨task, request, hl, hs, htask⟩ := hknown _ hstage
    have hruns := htask.runs_eq
    rw [Life.executed, hstage] at hruns
    exact Life.tracked_of_some hs hl ⟨htask.request_eq, hruns, by rintro ⟨⟩, htask.accepted⟩
  | @run task outcome hstage hl =>
    obtain ⟨request, hs, htask⟩ := ht.of_known hl
    have hruns := htask.runs_eq
    simp [Life.executed, hstage] at hruns
    refine Life.tracked_of_some hs rfl ⟨?_, ?_, fun _ => task.settle_terminal outcome, htask.accepted⟩
    · cases outcome <;> exact htask.request_eq
    · simp [hruns, Life.executed, htask.request_eq]
  | persist hstage =>
    obtain ⟨task, request, hl, hs, htask⟩ := hknown _ hstage
    have hruns := htask.runs_eq
    have hsettled := htask.settled
    rw [Life.executed, hstage] at hruns hsettled
    exact Life.tracked_of_some hs hl ⟨htask.request_eq, hruns, hsettled, htask.accepted⟩
  | finish hstage =>
    obtain ⟨task, request, hl, hs, htask⟩ := hknown _ hstage
    obtain ⟨hwait, hsub⟩ := hp.of_stage hl hstage
    have hruns := htask.runs_eq
    have hsettled := htask.settled
    rw [Life.executed, hstage] at hruns hsettled
    have hzero : Life.executed { l with stage := none } = true := by
      simp [Life.executed, Life.claims, hwait, hsub]
    exact Life.tracked_of_some hs hl ⟨htask.request_eq, hzero ▸ hruns, fun _ => hsettled rfl, htask.accepted⟩
  | recover | stop | abandon | crash => cases he
  | other => exact ht

/-! ## All tasks of a process -/

/-- The task the worker has taken and not yet called the orchestrator for. -/
def Worker.pending : Worker → List TaskId
  | .holding id .taken | .holding id .marked | .holding id .started | .holding id .running => [id]
  | _ => []

namespace Node

/-- The ids in the order of `enqueue`: the ones that were run, the one about to
be run, the queue. -/
def InOrder (s : Node) : Prop := s.enqueued = s.calls.map Prod.fst ++ s.worker.pending ++ s.queue

/-- The task is in the queue, once, with status `queued`. -/
def Waiting (s : Node) (id : TaskId) : Prop := s.queue.count id = 1 ∧ s.status id = some .queued

/-- The worker is executing the task. -/
def Executing (s : Node) (id : TaskId) : Prop := (s.worker.stage id).isSome = true

/-- The task is completed or failed, gone from the queue, and the worker is done
with it. -/
def Done (s : Node) (id : TaskId) : Prop :=
  (∃ status, s.status id = some status ∧ status.terminal = true) ∧ id ∉ s.queue ∧ ¬ s.Executing id

end Node

/-- One of three holds, and no two do. -/
def ExactlyOne (a b c : Prop) : Prop := (a ∧ ¬ b ∧ ¬ c) ∨ (¬ a ∧ b ∧ ¬ c) ∨ (¬ a ∧ ¬ b ∧ c)

theorem NodeEvent.undisturbed_lifeEvent {e : NodeEvent} (he : e.undisturbed = true) (s : Node) (id : TaskId) :
    (s.lifeEvent P id e).undisturbed = true := by
  cases e with
  | idle | subscribe _ _ | next _ | resume _ | close _ => rfl
  | start _ _ | stop | crash _ => cases he
  | _ =>
    simp only [Node.lifeEvent]
    split
    · exact he
    · rfl

theorem LifeEvent.not_requeues {e : LifeEvent} (he : e.undisturbed = true) (l : Life) : ¬ e.Requeues l := by
  cases e <;> first | exact id | cases he

/-- A submitted task that has a claim on the worker is in memory. -/
theorem Node.known_of_stage {s : Node} {id : TaskId} (ht : (s.life id).Tracked) {stage : Stage}
    (hs : s.worker.stage id = some stage) : ∃ task, s.tasks.get? id = some task :=
  ht.known (.inl (by rw [Life.claims_of_stage hs]; omega))

theorem inOrder_step {s s' : Node} {e : NodeEvent} (h : (node P).step s e = some s') (he : e.undisturbed = true)
    (ht : ∀ id, (s.life id).Tracked) (ho : s.InOrder) : s'.InOrder := by
  simp only [Node.InOrder] at ho
  cases nodeStep h with
  | @enqueue id enq =>
    have henq : enq = .none := by simpa [NodeEvent.undisturbed] using he
    subst henq
    simp [Node.InOrder, Fault.takesEffect, Fault.raises, ho]
  | dequeue hw hq => simpa [Node.InOrder, hw, hq, Worker.pending] using ho
  | @drop id hw hnone =>
    -- the worker knows every task it takes
    obtain ⟨task, hl⟩ := Node.known_of_stage (ht id) (by rw [hw, Worker.stage_holding, if_pos rfl])
    rw [hnone] at hl; cases hl
  | mark hw | begin hw | announce hw | run hw | persist hw | finish hw =>
    simpa [Node.InOrder, hw, Worker.pending, System.broadcast] using ho
  | submit | publish | idle | subscribe | refuse | next | leave | await | close => exact ho
  | startAgain | start | stop | crash => cases he

/-- What holds in every state of an undisturbed run. -/
def Node.Delivers (s : Node) : Prop := (∀ id, (s.life id).Placed ∧ (s.life id).Tracked) ∧ s.InOrder

theorem delivers_keeps (P : Pydantic) : (node P).Keeps (fun _ e => e.undisturbed = true) Node.Delivers := by
  rintro s e s' he h ⟨ht, ho⟩
  refine ⟨fun id => ?_, inOrder_step h he (fun id => (ht id).2) ho⟩
  have hlife := (lifeOf P id).sim h
  have hun := NodeEvent.undisturbed_lifeEvent (P := P) he s id
  exact ⟨placed_step hlife (LifeEvent.not_requeues hun _) (ht id).1, tracked_step hlife hun (ht id).1 (ht id).2⟩

/-- A start over empty stores. -/
theorem delivers_started {mode : RepoMode} {faults : TaskId → Fault Exc} {records : List TaskRecord} {s : Node}
    (h : (node P).step (.init mode) (.start faults records) = some s) : s.Delivers := by
  have hlife : ∀ id, s.life id = (Node.init mode).life id := fun id => by
    have hsim := (lifeOf P id).sim h
    have hother : (Node.init mode).lifeEvent P id (.start faults records) = .other := rfl
    simp only [lifeOf, hother] at hsim
    exact (Option.some.inj hsim).symm
  refine ⟨fun id => ?_, ?_⟩
  · rw [hlife id]
    exact ⟨⟨rfl, .inl rfl⟩, rfl, rfl, rfl, rfl, rfl, rfl⟩
  · have hqueue : s.queue = [] := List.eq_nil_iff_forall_not_mem.2 fun id hid => by
      have hzero : s.queue.count id = 0 := congrArg Life.waiting (hlife id)
      exact List.count_eq_zero.1 hzero hid
    cases nodeStep h with
    | startAgain hstarted => cases hstarted
    | start => rw [Node.InOrder, hqueue]; rfl

namespace Node

variable {s : Node} {id : TaskId}

theorem length_runs (s : Node) (id : TaskId) : (s.runs id).length = (s.calls.map Prod.fst).count id := by
  rw [List.count, List.countP_map, List.countP_eq_length_filter]
  exact List.length_map ..

theorem mem_runs {request : UnifiedRequest} (h : (id, request) ∈ s.calls) : request ∈ s.runs id :=
  List.mem_map.2 ⟨(id, request), List.mem_filter.2 ⟨h, by simp⟩, rfl⟩

/-- A task is run with no other request than its own, and at most once. -/
theorem Delivers.runs_eq (h : s.Delivers) (id : TaskId) :
    s.runs id = [] ∨ ∃ request, s.submitted.get? id = some request ∧ s.runs id = [request] := by
  have ht := (h.1 id).2
  cases hs : (s.life id).submitted with
  | none => exact .inl (ht.of_none hs).2.2.2.2.1
  | some request =>
    rw [Life.Tracked, hs] at ht
    obtain ⟨task, -, htask⟩ := ht
    have hruns : s.runs id = if (s.life id).executed then [request] else [] := htask.runs_eq
    cases he : (s.life id).executed with
    | true => exact .inr ⟨request, hs, by rw [hruns, he]; rfl⟩
    | false => exact .inl (by rw [hruns, he]; rfl)

/-- A task whose submission returned is in exactly one of three places. -/
theorem Delivers.place (h : s.Delivers) (hacc : id ∈ s.accepted) :
    ExactlyOne (s.Waiting id) (s.Executing id) (s.Done id) := by
  obtain ⟨hp, ht⟩ := h.1 id
  have hacc' : (s.life id).accepted = true := List.contains_iff_mem.2 hacc
  cases hs : (s.life id).submitted with
  | none => rw [(ht.of_none hs).2.2.2.2.2] at hacc'; cases hacc'
  | some request =>
    rw [Life.Tracked, hs] at ht
    obtain ⟨task, hl, htask⟩ := ht
    have hstatus : s.status id = some task.status := congrArg (Option.map _) hl
    have hsub := htask.accepted hacc'
    cases hstage : (s.life id).stage with
    | some stage =>
      have hexec : s.Executing id := Option.isSome_iff_exists.2 ⟨stage, hstage⟩
      have hzero : s.queue.count id = 0 := (hp.of_stage hl hstage).1
      refine .inr (.inl ⟨fun hw => ?_, hexec, fun hd => hd.2.2 hexec⟩)
      exact absurd (hw.1.symm.trans hzero) (by decide)
    | none =>
      have hexec : ¬ s.Executing id := Option.not_isSome_iff_eq_none.2 hstage
      by_cases hwait : 0 < (s.life id).waiting
      · obtain ⟨hone, -, -, hq⟩ := hp.of_waiting hl hwait
        have hmem : id ∈ s.queue := List.count_pos_iff.1 hwait
        exact .inl ⟨⟨hone, hq ▸ hstatus⟩, hexec, fun hd => hd.2.1 hmem⟩
      · have hzero : (s.life id).waiting = 0 := by omega
        have hexecuted : (s.life id).executed = true := by
          simp [Life.executed, Life.claims, hstage, hzero, hsub]
        refine .inr (.inr ⟨fun hw => ?_, hexec, ⟨_, hstatus, htask.settled hexecuted⟩, ?_, hexec⟩)
        · exact absurd (hw.1.symm.trans hzero) (by decide)
        · exact List.count_eq_zero.1 hzero

/-- A task that is done was run. -/
theorem Delivers.runs_of_done (h : s.Delivers) (hdone : s.Done id) :
    ∃ request, s.submitted.get? id = some request ∧ s.runs id = [request] := by
  obtain ⟨⟨status, hstatus, hterm⟩, hqueue, hexec⟩ := hdone
  obtain ⟨hp, ht⟩ := h.1 id
  obtain ⟨task, hl, rfl⟩ := Option.map_eq_some_iff.1 hstatus
  obtain ⟨request, hs, htask⟩ := ht.of_known hl
  have hstage : (s.life id).stage = none := by
    rw [← Option.not_isSome_iff_eq_none]; exact hexec
  have hwait : (s.life id).waiting = 0 := List.count_eq_zero.2 hqueue
  have hsub : (s.life id).submission ≠ some .created := fun hsub => by
    obtain ⟨task', hl', -, -, hq⟩ := hp.of_created hsub
    rw [show (s.life id).envelope = some task from hl, Option.some.injEq] at hl'
    rw [hl', hq] at hterm; cases hterm
  have hexecuted : (s.life id).executed = true := by
    simp [Life.executed, Life.claims, hstage, hwait, hsub]
  exact ⟨request, hs, by rw [runs, htask.runs_eq, hexecuted]; rfl⟩

/-- The worker is never stuck with a task. -/
theorem Delivers.worker_moves (h : s.Delivers) {stage : Stage} (hw : s.worker = .holding id stage)
    (outcome : Except Exc UnifiedResponse) :
    ((node P).step s .work).isSome = true ∨ ((node P).step s (.run outcome)).isSome = true := by
  obtain ⟨task, hl⟩ := known_of_stage (h.1 id).2 (by rw [hw, Worker.stage_holding, if_pos rfl])
  cases stage with
  | taken => exact .inl (by simp only [node, work, hw, hl, Option.isSome_some])
  | marked => exact .inl (by simp only [node, work, hw, Option.isSome_some])
  | started => exact .inl (by simp only [node, work, hw, published_eq P hl, Option.map_some, Option.isSome_some])
  | running => exact .inr (by simp only [node, runStep, hw, hl, Option.map_some, Option.isSome_some])
  | finished _ => exact .inl (by simp only [node, work, hw, Option.isSome_some])
  | persisted =>
    exact .inl (by simp only [node, work, hw, published_eq P hl, Option.map_some, Option.isSome_some])

end Node

/-- In a run that starts once over empty stores and meets no fault, a task whose
submission returned is in one place, the runs follow the order of `enqueue`,
and no task is run twice or with another task's request. -/
theorem delivery {mode : RepoMode} {faults : TaskId → Fault Exc} {records : List TaskRecord} {s : Node}
    {es : List NodeEvent} (h : (node P).run (.init mode) (.start faults records :: es) = some s)
    (hes : ∀ e ∈ es, e.undisturbed = true) :
    (∀ id ∈ s.accepted, ExactlyOne (s.Waiting id) (s.Executing id) (s.Done id)) ∧
    s.calls.map Prod.fst <+: s.enqueued ∧
    (s.calls.map Prod.fst).Nodup ∧
    (∀ id request, (id, request) ∈ s.calls → s.submitted.get? id = some request) ∧
    ∀ id, s.Done id → ∃ request, s.submitted.get? id = some request ∧ s.runs id = [request] := by
  obtain ⟨s₁, h₁, h₂⟩ := Option.bind_eq_some_iff.1 h
  have hd : s.Delivers := (node P).run_inv (delivers_keeps P) ((node P).meets_of_forall hes) h₂ (delivers_started h₁)
  refine ⟨fun id hacc => hd.place hacc, ?_, ?_, ?_, fun id hdone => hd.runs_of_done hdone⟩
  · rw [hd.2, List.append_assoc]
    exact List.prefix_append ..
  · refine List.nodup_iff_count_le_one.2 fun id => ?_
    rw [← s.length_runs id]
    rcases hd.runs_eq id with hruns | ⟨request, -, hruns⟩ <;> simp [hruns]
  · intro id request hmem
    have hrun := Node.mem_runs hmem
    rcases hd.runs_eq id with hruns | ⟨request', hs, hruns⟩
    · rw [hruns] at hrun; cases hrun
    · rw [hruns, List.mem_singleton] at hrun; exact hrun ▸ hs

/-- `delivery` for a task that is submitted and executed. -/
theorem delivery_finished :
    ∃ s, (node .strict).run (.init .memory) finishEvents = some s ∧
      ExactlyOne (s.Waiting "t") (s.Executing "t") (s.Done "t") := by
  have hrun : ((node .strict).run (.init .memory) finishEvents).map (·.accepted) = some ["t"] := by decide
  obtain ⟨s, hs, hacc⟩ := Option.map_eq_some_iff.1 hrun
  exact ⟨s, hs, (delivery hs (by decide)).1 "t" (by simp [hacc])⟩

end Ochestrate
