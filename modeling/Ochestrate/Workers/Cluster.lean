import Ochestrate.Workers.Delivery

/-!
# Several processes on one queue

Processes that share the queue and the repository, each with its own tasks in
memory. `cluster` interleaves the steps of the processes; an id that `uuid4`
draws is new to all of them. Each process sees itself as a `Node` over the
shared stores, so what `Node` says about one step holds here.

A task whose row is `queued` waits for a worker: its submission is about to
enqueue it, its id is in the queue, or a worker has taken it and will mark it
(`Life.Claimed`). A worker that takes an id whose envelope another process
holds drops it (`Cluster.loses`): the row stays `queued` for ever. Without such
a step every accepted task is served (`accepted_served`).
-/

namespace Ochestrate

/-- What a process has for itself. -/
structure Proc extends TaskManager, Control where
  calls : List (TaskId × UnifiedRequest) := []

/-- `n` processes and the stores they share. -/
structure Cluster (n : Nat) where
  procs : Fin n → Proc
  store : Store

namespace Cluster

variable {n : Nat}

/-- The process `p` over the shared stores. -/
def node (c : Cluster n) (p : Fin n) : Node where
  toTaskManager := (c.procs p).toTaskManager
  toStore := c.store
  calls := (c.procs p).calls
  toControl := (c.procs p).toControl

/-- The process `p` is now `s`, and so are the stores. -/
def put (c : Cluster n) (p : Fin n) (s : Node) : Cluster n where
  procs q := if q = p then { toTaskManager := s.toTaskManager, toControl := s.toControl, calls := s.calls }
    else c.procs q
  store := s.toStore

/-- The id occurs in no process. -/
def Fresh (c : Cluster n) (id : TaskId) : Prop := ∀ p, (c.node p).Fresh id

instance (c : Cluster n) (id : TaskId) : Decidable (c.Fresh id) := inferInstanceAs (Decidable (∀ _, _))

/-- An id that the event draws is new to every process. -/
def Admits (c : Cluster n) : NodeEvent → Prop
  | .submit id _ _ => c.Fresh id
  | _ => True

instance (c : Cluster n) : (e : NodeEvent) → Decidable (c.Admits e)
  | .submit id _ _ => inferInstanceAs (Decidable (c.Fresh id))
  | .enqueue _ _ | .publish _ | .idle | .dequeue | .work | .run _ | .subscribe _ _ | .next _ | .resume _ | .close _
  | .start _ _ | .stop | .crash _ => isTrue trivial

@[simp] theorem node_put (c : Cluster n) (p : Fin n) (s : Node) : (c.put p s).node p = s := by
  simp only [node, put, ↓reduceIte]

/-- What one task is to the process `p`. -/
def life (c : Cluster n) (p : Fin n) (id : TaskId) : Life := (c.node p).life id

/-- A process that did not move sees the new stores. -/
theorem life_put_ne (c : Cluster n) {p q : Fin n} (h : q ≠ p) (s : Node) (id : TaskId) :
    (c.put p s).life q id = { c.life q id with
      mode := (s.life id).mode, row := (s.life id).row, waiting := (s.life id).waiting } := by
  simp [life, node, put, h, Node.life]

end Cluster

/-- The machine of `n` processes: an event happens in one of them. -/
def cluster (P : Pydantic) (n : Nat) : Machine (Cluster n) (Fin n × NodeEvent) where
  step c pe := if c.Admits pe.2 then ((node P).step (c.node pe.1) pe.2).map (c.put pe.1) else none

namespace Life

/-- A submission or a worker of this process, or the queue, has the task. -/
def Claimed (l : Life) : Prop :=
  l.submission = some .created ∨ 0 < l.waiting ∨ l.stage = some .taken ∨ l.stage = some .marked

/-- The row waits for a worker. -/
def RowQueued (l : Life) : Prop := ∃ r, l.row = some r ∧ r.status = .queued

/-- A process that was not started again: it holds what was submitted to it,
and forgets a submission when it returns. -/
structure Owned (l : Life) : Prop where
  envelope : l.submitted ≠ none → l.envelope ≠ none
  submission : l.submission ≠ none → l.submitted ≠ none
  accepted : l.accepted = true → l.submitted ≠ none ∧ l.submission = none

end Life

variable {P : Pydantic} {id : TaskId}

/-- A step gives no claim on a `queued` row away: the worker that has taken a
task it knows marks it, and a marked row is no longer `queued`. -/
theorem claimed_step {l l' : Life} {e : LifeEvent} (h : (lifeCycle P id).step l e = some l')
    (he : e.undisturbed = true) (hknown : l.stage = some .taken → l.envelope ≠ none) (hq : l'.RowQueued) :
    l'.Claimed ∨ (l.RowQueued ∧ ¬ l.Claimed) := by
  have hkept : ∀ {l' : Life}, l'.row = l.row → l'.submission = l.submission → l'.waiting = l.waiting →
      l.stage ≠ some .taken → l.stage ≠ some .marked → l'.RowQueued → l'.Claimed ∨ (l.RowQueued ∧ ¬ l.Claimed) :=
    fun hrow hsub hwait htaken hmarked ⟨r, hr, hs⟩ => by
      by_cases hc : l.Claimed
      · rcases hc with hc | hc | hc | hc
        · exact .inl (.inl (hsub.trans hc))
        · exact .inl (.inr (.inl (hwait ▸ hc)))
        · exact absurd hc htaken
        · exact absurd hc hmarked
      · exact .inr ⟨⟨r, hrow ▸ hr, hs⟩, hc⟩
  cases lifeStep h with
  | @submit request create =>
    have hcreate : create = .none := by simpa [LifeEvent.undisturbed] using he
    subst hcreate
    exact .inl (.inl rfl)
  | @enqueue enq =>
    have henq : enq = .none := by simpa [LifeEvent.undisturbed] using he
    subst henq
    exact .inl (.inr (.inl (Nat.succ_pos _)))
  | publish hsub =>
    by_cases hc : l.Claimed
    · refine .inl (.inr (hc.resolve_left fun hcreated => ?_))
      rw [hsub] at hcreated; cases hcreated
    · exact .inr ⟨hq, hc⟩
  | dequeue => exact .inl (.inr (.inr (.inl rfl)))
  | drop hstage hl => exact absurd hl (hknown hstage)
  | mark => exact .inl (.inr (.inr (.inr rfl)))
  | begin =>
    obtain ⟨r, hr, hs⟩ := hq
    obtain ⟨r', -, rfl⟩ := Option.map_eq_some_iff.1 hr
    rw [TaskRecord.updateStatus_status] at hs; cases hs
  | announce hstage => exact hkept rfl rfl rfl (by simp [hstage]) (by simp [hstage]) hq
  | run hstage => exact hkept rfl rfl rfl (by simp [hstage]) (by simp [hstage]) hq
  | @persist outcome =>
    obtain ⟨r, hr, hs⟩ := hq
    obtain ⟨r', -, rfl⟩ := Option.map_eq_some_iff.1 hr
    cases outcome <;> rw [TaskRecord.settle, TaskRecord.updateStatus_status] at hs <;> cases hs
  | finish hstage => exact hkept rfl rfl rfl (by simp [hstage]) (by simp [hstage]) hq
  | recover | stop | abandon | crash => cases he
  | other =>
    by_cases hc : l.Claimed
    · exact .inl hc
    · exact .inr ⟨hq, hc⟩

/-- A worker that takes a task its process knows goes on knowing it. -/
theorem taken_step {l l' : Life} {e : LifeEvent} (h : (lifeCycle P id).step l e = some l')
    (he : e.undisturbed = true) (hd : e = .dequeue → l.envelope ≠ none)
    (hknown : l.stage = some .taken → l.envelope ≠ none) (ht : l'.stage = some .taken) : l'.envelope ≠ none := by
  cases lifeStep h with
  | submit => simp
  | enqueue | publish | other => exact hknown ht
  | dequeue => exact hd rfl
  | drop | mark | begin | announce | run | persist | finish => cases ht
  | recover | stop | abandon | crash => cases he

/-- A task is submitted once. -/
theorem submitted_step {l l' : Life} {e : LifeEvent} (h : (lifeCycle P id).step l e = some l') :
    (l'.submitted = l.submitted ∧ ∀ request create, e ≠ .submit request create) ∨
      (l.Unborn ∧ l'.stage = l.stage ∧ ∃ request create, e = .submit request create) := by
  cases lifeStep h with
  | submit hunborn => exact .inr ⟨hunborn, rfl, _, _, rfl⟩
  | _ => exact .inl ⟨rfl, by simp⟩

theorem owned_step {l l' : Life} {e : LifeEvent} (h : (lifeCycle P id).step l e = some l')
    (he : e.undisturbed = true) (hi : l.Owned) : l'.Owned := by
  cases lifeStep h with
  | submit hunborn =>
    exact ⟨by simp, by simp, fun hacc => absurd hunborn.1 (hi.accepted hacc).1⟩
  | @enqueue enq hsub =>
    have hsubmitted := hi.submission (by simp [hsub])
    refine ⟨hi.envelope, fun _ => hsubmitted, fun hacc => absurd (hsub.symm.trans (hi.accepted hacc).2) (by simp)⟩
  | publish hsub =>
    have hsubmitted := hi.submission (by simp [hsub])
    exact ⟨hi.envelope, fun hne => absurd rfl hne, fun _ => ⟨hsubmitted, rfl⟩⟩
  | mark | run => exact ⟨by simp, hi.submission, hi.accepted⟩
  | dequeue | drop | begin | announce | persist | finish => exact ⟨hi.envelope, hi.submission, hi.accepted⟩
  | recover | stop | abandon | crash => cases he
  | other => exact hi

/-! ## The runs of the processes -/

namespace Cluster

variable {n : Nat}

/-- This event takes an id from the queue that is not in the memory of the
process, but in another's. -/
def loses (id : TaskId) (c : Cluster n) : Fin n × NodeEvent → Bool
  | (p, .dequeue) => c.store.queue.head? = some id && ((c.procs p).tasks.get? id).isNone &&
      decide (∃ q, ((c.procs q).tasks.get? id).isSome = true)
  | _ => false

/-- What holds of one task as long as no process loses it. -/
structure Served (c : Cluster n) (id : TaskId) : Prop where
  owned : ∀ p, (c.life p id).Owned
  unique : ∀ p q, (c.life p id).submitted ≠ none → (c.life q id).submitted ≠ none → p = q
  taken : ∀ p q, (c.life q id).submitted ≠ none → (c.life p id).stage = some .taken → (c.life p id).envelope ≠ none
  claimed : ∀ p, (c.life p id).submitted ≠ none → (c.life p id).RowQueued → ∃ q, (c.life q id).Claimed

/-- A worker that takes a submitted task knows it, unless the task is lost. -/
theorem Served.dequeue_known {c : Cluster n} (hs : c.Served id) {p q : Fin n} {e : NodeEvent}
    (hm : c.loses id (p, e) = false) (hq : (c.life q id).submitted ≠ none)
    (he : (c.node p).lifeEvent P id e = .dequeue) : (c.life p id).envelope ≠ none := by
  intro hnone
  obtain ⟨rfl, hhead⟩ := Node.lifeEvent_dequeue he
  have hp : (c.procs p).tasks.get? id = none := hnone
  have hsome : ∃ q, ((c.procs q).tasks.get? id).isSome = true :=
    ⟨q, Option.isSome_iff_ne_none.2 ((hs.owned q).envelope hq)⟩
  have hhead' : c.store.queue.head? = some id := hhead
  simp [loses, hp, hhead', hsome] at hm

theorem served_step {c c' : Cluster n} {pe : Fin n × NodeEvent} (h : (cluster P n).step c pe = some c')
    (he : pe.2.undisturbed = true) (hm : c.loses id pe = false) (hs : c.Served id) : c'.Served id := by
  obtain ⟨p, e⟩ := pe
  obtain ⟨hadmits, h⟩ := Option.ite_none_right_eq_some.1 h
  obtain ⟨s, hstep, rfl⟩ := Option.map_eq_some_iff.1 h
  have hlife : (lifeCycle P id).step (c.life p id) ((c.node p).lifeEvent P id e) = some (s.life id) :=
    Node.life_step P hstep id
  have hun := NodeEvent.undisturbed_lifeEvent (P := P) he (c.node p) id
  have hself : (c.put p s).life p id = s.life id := by rw [life, node_put]
  have hrow : ∀ q, ((c.put p s).life q id).row = (s.life id).row := fun _ => rfl
  have howned : ∀ q, ((c.put p s).life q id).Owned := fun q => by
    by_cases hq : q = p
    · rw [hq, hself]; exact owned_step hlife hun (hs.owned p)
    · rw [c.life_put_ne hq]; exact ⟨(hs.owned q).envelope, (hs.owned q).submission, (hs.owned q).accepted⟩
  rcases submitted_step hlife with ⟨hsubmitted, hno⟩ | ⟨hunborn, hstage, request, create, hsubmit⟩
  · -- nobody submits the task: it stays with its process
    have hall : ∀ q, ((c.put p s).life q id).submitted = (c.life q id).submitted := fun q => by
      by_cases hq : q = p
      · rw [hq, hself, hsubmitted]
      · rw [c.life_put_ne hq]
    refine ⟨howned, fun p₁ q₁ => ?_, fun p₁ q₁ hq₁ => ?_, fun p₁ hp₁ hqueued => ?_⟩
    · rw [hall, hall]; exact hs.unique p₁ q₁
    · rw [hall] at hq₁
      by_cases hp₁ : p₁ = p
      · rw [hp₁, hself]
        exact taken_step hlife hun (hs.dequeue_known hm hq₁) (hs.taken p q₁ hq₁)
      · rw [c.life_put_ne hp₁]; exact hs.taken p₁ q₁ hq₁
    · rw [hall] at hp₁
      rcases claimed_step hlife hun (hs.taken p p₁ hp₁) hqueued with hc | ⟨hqueued', hnot⟩
      · exact ⟨p, hself ▸ hc⟩
      · -- the claim is another process's own
        obtain ⟨q, hc⟩ := hs.claimed p₁ hp₁ hqueued'
        have hq : q ≠ p := fun heq => hnot (heq ▸ hc)
        refine ⟨q, ?_⟩
        rw [c.life_put_ne hq]
        have hwait : ¬ 0 < (c.life q id).waiting := fun hwait => hnot (.inr (.inl hwait))
        exact hc.imp_right fun hc => .inr (hc.resolve_left hwait)
  · -- the task is new to every process
    have hfresh : c.Fresh id := by rw [Node.lifeEvent_submit hsubmit] at hadmits; exact hadmits
    have hnone : ∀ q, q ≠ p → ((c.put p s).life q id).submitted = none := fun q hq => by
      rw [c.life_put_ne hq]; exact (hfresh q).1
    have hidle : ∀ q, ((c.put p s).life q id).stage = none := fun q => by
      by_cases hq : q = p
      · rw [hq, hself, hstage]; exact Option.isNone_iff_eq_none.1 hunborn.2.2.2.2.2
      · rw [c.life_put_ne hq]; exact Option.isNone_iff_eq_none.1 (hfresh q).2.2.2.2.2.1
    refine ⟨howned, fun p₁ q₁ hp₁ hq₁ => ?_, fun p₁ q₁ hq₁ ht => ?_, fun p₁ hp₁ hqueued => ?_⟩
    · have hp : p₁ = p := by_contra fun hne => hp₁ (hnone p₁ hne)
      have hq : q₁ = p := by_contra fun hne => hq₁ (hnone q₁ hne)
      rw [hp, hq]
    · rw [hidle] at ht; cases ht
    · have hknown : (c.life p id).stage = some .taken → (c.life p id).envelope ≠ none := fun ht => by
        rw [Option.isNone_iff_eq_none.1 hunborn.2.2.2.2.2] at ht; cases ht
      rcases claimed_step hlife hun hknown hqueued with hc | ⟨⟨r, hr, -⟩, -⟩
      · exact ⟨p, hself ▸ hc⟩
      · rw [hunborn.2.2.2.1] at hr; cases hr

/-- Every process is started and has no submission behind it. The stores and
the tasks in memory may be anything. -/
def Started (c : Cluster n) : Prop :=
  ∀ p, (c.procs p).worker = .polling ∧ (c.procs p).submits = .empty ∧ (c.procs p).submitted = .empty ∧
    (c.procs p).accepted = []

theorem Started.served {c : Cluster n} (h : c.Started) (id : TaskId) : c.Served id := by
  have hsub : ∀ p, (c.life p id).submitted = none := fun p =>
    (congrArg (Dict.get? · id) (h p).2.2.1 : (c.procs p).submitted.get? id = _)
  refine ⟨fun p => ⟨fun hne => absurd (hsub p) hne, fun hne => absurd ?_ hne, fun hacc => ?_⟩,
    fun p _ hp _ => absurd (hsub p) hp, fun _ q hq => absurd (hsub q) hq, fun p hp => absurd (hsub p) hp⟩
  · exact (congrArg (Dict.get? · id) (h p).2.1 : (c.procs p).submits.get? id = _)
  · have hno : (c.life p id).accepted = ([] : List TaskId).contains id := congrArg (List.contains · id) (h p).2.2.2
    rw [hacc] at hno; cases hno

end Cluster

/-- In every run without faults in which no process takes an id that only
another process knows: an accepted task whose row is `queued` is in the queue or
with a worker, and a worker that takes it knows it. -/
theorem accepted_served {n : Nat} {c₀ c : Cluster n} {es : List (Fin n × NodeEvent)} (h₀ : c₀.Started)
    (h : (cluster P n).run c₀ es = some c) (hes : ∀ pe ∈ es, pe.2.undisturbed = true) {id : TaskId}
    (hm : (cluster P n).Meets (fun c pe => c.loses id pe = false) c₀ es) {p : Fin n}
    (hacc : id ∈ (c.procs p).accepted) :
    (∀ r, c.store.repo.get id = some r → r.status = .queued →
      id ∈ c.store.queue ∨ ∃ q, ((c.procs q).worker.stage id).isSome = true) ∧
    ∀ q, (c.procs q).worker = .holding id .taken → ((c.procs q).tasks.get? id).isSome = true := by
  have hs : c.Served id := (cluster P n).run_inv
    (C := fun c pe => c.loses id pe = false ∧ pe.2.undisturbed = true) (I := fun c => c.Served id)
    (fun hc hstep hi => Cluster.served_step hstep hc.2 hc.1 hi)
    ((cluster P n).meets_and.2 ⟨hm, (cluster P n).meets_of_forall (D := fun pe => pe.2.undisturbed = true) hes⟩) h
    (h₀.served id)
  have hacc' : (c.life p id).accepted = true := List.contains_iff_mem.2 hacc
  obtain ⟨hsub, hnone⟩ := (hs.owned p).accepted hacc'
  refine ⟨fun r hr hq => ?_, fun q hw => ?_⟩
  · obtain ⟨q, hc⟩ := hs.claimed p hsub ⟨r, hr, hq⟩
    rcases hc with hc | hc | hc | hc
    · -- no other process has a submission of the task
      have hsubq := (hs.owned q).submission (by rw [hc]; simp)
      rw [hs.unique p q hsub hsubq] at hnone
      rw [hnone] at hc; cases hc
    · exact .inl (List.count_pos_iff.1 hc)
    · exact .inr ⟨q, Option.isSome_iff_exists.2 ⟨_, hc⟩⟩
    · exact .inr ⟨q, Option.isSome_iff_exists.2 ⟨_, hc⟩⟩
  · have hstage : (c.life q id).stage = some .taken := by
      show (c.procs q).worker.stage id = some .taken
      rw [hw, Worker.stage_holding, if_pos rfl]
    exact Option.isSome_iff_ne_none.2 (hs.taken q p hsub hstage)

/-- `n` processes that have just started, over empty stores. -/
def Cluster.init (mode : RepoMode) (n : Nat) : Cluster n where
  procs _ := { workerTask := true, worker := .polling }
  store := { queue := [], repo := .empty mode }

/-- The second process takes the first one's task. -/
def lostEvents : List (Fin 2 × NodeEvent) :=
  [(0, .submit "t" hello .none), (0, .enqueue "t" .none), (0, .publish "t"), (1, .dequeue), (1, .work)]

/-- The task is accepted and its row `queued`, but neither in the queue nor with
a worker. -/
theorem accepted_lost :
    ((cluster .strict 2).run (.init .database 2) lostEvents).map (fun c =>
      ((c.procs 0).accepted, (c.store.repo.get "t").map (·.status), c.store.queue,
        ((c.procs 0).worker.stage "t").isSome || ((c.procs 1).worker.stage "t").isSome)) =
      some (["t"], some .queued, [], false) := by
  decide

/-- The first process takes its own task. -/
def servedEvents : List (Fin 2 × NodeEvent) :=
  [(0, .submit "t" hello .none), (0, .enqueue "t" .none), (0, .publish "t"), (0, .dequeue)]

/-- `accepted_served` while the worker has the task. -/
theorem accepted_served_own :
    ∃ c, (cluster .strict 2).run (.init .database 2) servedEvents = some c ∧
      ∀ r, c.store.repo.get "t" = some r → r.status = .queued →
        "t" ∈ c.store.queue ∨ ∃ q, ((c.procs q).worker.stage "t").isSome = true := by
  have hrun : ((cluster .strict 2).run (.init .database 2) servedEvents).map (fun c => (c.procs 0).accepted) =
      some ["t"] := by
    decide
  obtain ⟨c, hc, hacc⟩ := Option.map_eq_some_iff.1 hrun
  exact ⟨c, hc, (accepted_served (p := 0) (fun _ => ⟨rfl, rfl, rfl, rfl⟩) hc (by decide) (by decide)
    (by rw [hacc]; exact List.mem_singleton_self _)).1⟩

end Ochestrate
