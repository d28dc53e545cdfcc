import Ochestrate.Workers.Delivery

/-!
# Status streams

A stream sees one task through snapshots: the current one when it subscribes,
and one with every publication. Seen from one stream, a process is a register
with a subscriber (`Framework/Observer.lean`): the snapshot of the task in
memory is the register, and the worker writes it before it publishes
(`Node.observed`, `observed_step`). That the subscriber gets every publication
once, and none after its end, is the invariant `Node.Registered` of the sets of
subscribers.

The statuses rise from `queued` over `running` to a terminal one as long as the
task is placed (`Placement.lean`). A start over a queue that still holds the id
of a task it recovers breaks this; `stream_faithful` is about processes started
without one.
-/

namespace Ochestrate

/-- The order `queued < running < completed, failed`. -/
def TaskStatus.rank : TaskStatus → Nat
  | .queued => 0
  | .running => 1
  | .completed | .failed => 2

/-- The process is stopped, restarted or dies. -/
def NodeEvent.restarts : NodeEvent → Bool
  | .start .. | .stop | .crash _ => true
  | _ => false

/-- The subscribers of a task. -/
def System.subs (s : System) (id : TaskId) : List SubId := (s.subscribers.get? id).getD []

/-- The sets of subscribers hold the streams that have not ended, none of them
is empty, and only a stream has a queue. -/
structure Node.Registered (s : Node) : Prop where
  mem_iff : ∀ id k, k ∈ s.subs id ↔
    ∃ stream, s.streams.get? k = some stream ∧ stream.taskId = id ∧ stream.phase.registered = true
  nodup : ∀ id, (s.subs id).Nodup
  nonempty : ∀ id, s.subscribers.get? id ≠ some []
  unused : ∀ k, s.streams.get? k = none → s.queues.get? k = none

variable {P : Pydantic}

theorem get?_putAll (qs : Dict SubId (List TaskStatusResponse)) {subs : List SubId} (hn : subs.Nodup)
    (v : TaskStatusResponse) (k : SubId) :
    (System.putAll qs subs v).get? k = if k ∈ subs then some ((qs.get? k).getD [] ++ [v]) else qs.get? k := by
  induction subs generalizing qs with
  | nil => simp [System.putAll]
  | cons l subs ih =>
    rw [List.nodup_cons] at hn
    have hfold : System.putAll qs (l :: subs) v = System.putAll (qs.set l ((qs.get? l).getD [] ++ [v])) subs v := rfl
    rw [hfold, ih _ hn.2]
    by_cases hk : k = l
    · subst hk; simp [hn.1]
    · simp [hk, Dict.get?_set]

namespace System

theorem subs_unsubscribe (s : System) (k : SubId) (id id' : TaskId) :
    (s.unsubscribe k id).subs id' = if id' = id then (s.subs id).filter (· ≠ k) else s.subs id' := by
  unfold unsubscribe subs
  cases hs : s.subscribers.get? id with
  | none =>
    by_cases hid : id' = id
    · subst hid; simp [hs]
    · simp [hid]
  | some subs =>
    by_cases hrest : subs.filter (· ≠ k) = []
    · simp only [hrest, ↓reduceIte, Dict.get?_erase, Option.getD_some]
      split <;> rfl
    · simp only [hrest, ↓reduceIte, Dict.get?_set, Option.getD_some]
      split <;> rfl

theorem unsubscribe_nonempty {s : System} (hn : ∀ id, s.subscribers.get? id ≠ some []) (k : SubId)
    (id id' : TaskId) : (s.unsubscribe k id).subscribers.get? id' ≠ some [] := by
  unfold unsubscribe
  split
  · exact hn id'
  · rename_i subs hs
    by_cases hrest : subs.filter (· ≠ k) = []
    · simp only [hrest, ↓reduceIte, Dict.get?_erase]
      split
      · simp
      · exact hn id'
    · simp only [hrest, ↓reduceIte, Dict.get?_set]
      split
      · simpa using hrest
      · exact hn id'

end System

namespace Node.Registered

variable {s s' : Node} {k : SubId} {stream stream' : Stream}

/-- Every stream is registered with its own task only. -/
theorem not_mem (h : s.Registered) (hk : s.streams.get? k = some stream) {id : TaskId} (hne : stream.taskId ≠ id) :
    k ∉ s.subs id := fun hmem => by
  obtain ⟨stream₁, hk₁, hid, -⟩ := (h.mem_iff id k).1 hmem
  rw [hk, Option.some.injEq] at hk₁
  exact hne (hk₁ ▸ hid)

/-- A stream moves on without ending. -/
theorem move (h : s.Registered) (hk : s.streams.get? k = some stream) (hid : stream'.taskId = stream.taskId)
    (hreg : stream'.phase.registered = stream.phase.registered) (hsubs : s'.subscribers = s.subscribers)
    (hstreams : s'.streams = s.streams.set k stream') (hqueues : ∀ l, l ≠ k → s'.queues.get? l = s.queues.get? l) :
    s'.Registered := by
  have hsubs' : ∀ id, s'.subs id = s.subs id := fun id => by rw [System.subs, System.subs, hsubs]
  refine ⟨fun id l => ?_, fun id => ?_, fun id => ?_, fun l hl => ?_⟩
  · rw [hsubs', h.mem_iff, hstreams, Dict.get?_set]
    by_cases hlk : l = k
    · subst hlk
      simp only [hk, ↓reduceIte, Option.some.injEq, exists_eq_left', hid, hreg]
    · simp only [hlk, ↓reduceIte]
  · rw [hsubs']; exact h.nodup id
  · rw [hsubs]; exact h.nonempty id
  · rw [hstreams, Dict.get?_set] at hl
    split at hl
    · cases hl
    · rename_i hlk
      rw [hqueues l hlk]; exact h.unused l hl

/-- A stream ends. -/
theorem leave (h : s.Registered) (hk : s.streams.get? k = some stream) (hend : stream'.phase.registered = false)
    (hsubs : s'.subscribers = (s.unsubscribe k stream.taskId).subscribers)
    (hstreams : s'.streams = s.streams.set k stream') (hqueues : s'.queues = s.queues) : s'.Registered := by
  have hsubs' : ∀ id, s'.subs id =
      if id = stream.taskId then (s.subs stream.taskId).filter (· ≠ k) else s.subs id := fun id => by
    rw [System.subs, hsubs]; exact s.subs_unsubscribe k stream.taskId id
  refine ⟨fun id l => ?_, fun id => ?_, fun id => ?_, fun l hl => ?_⟩
  · rw [hsubs', hstreams, Dict.get?_set]
    by_cases hlk : l = k
    · subst hlk
      have hno : l ∉ s.subs id ∨ id = stream.taskId := by
        by_cases hne : stream.taskId = id
        · exact .inr hne.symm
        · exact .inl (h.not_mem hk hne)
      simp only [↓reduceIte, Option.some.injEq, exists_eq_left', hend, Bool.false_eq_true, and_false, iff_false]
      split
      · simp
      · rename_i hne; exact hno.resolve_right hne
    · simp only [hlk, ↓reduceIte, ← h.mem_iff]
      split
      · rename_i heq; subst heq; simp [hlk]
      · rfl
  · rw [hsubs']
    split
    · exact (h.nodup _).sublist List.filter_sublist
    · exact h.nodup id
  · rw [hsubs]; exact System.unsubscribe_nonempty h.nonempty k stream.taskId id
  · rw [hstreams, Dict.get?_set] at hl
    split at hl
    · cases hl
    · rw [hqueues]; exact h.unused l hl

/-- A stream begins. -/
theorem enter (h : s.Registered) (hk : s.streams.get? k = none) (hreg : stream.phase.registered = true)
    (hsubs : s'.subscribers = s.subscribers.set stream.taskId (s.subs stream.taskId ++ [k]))
    (hstreams : s'.streams = s.streams.set k stream) (hqueues : ∀ l, l ≠ k → s'.queues.get? l = s.queues.get? l) :
    s'.Registered := by
  have hsubs' : ∀ id, s'.subs id =
      if id = stream.taskId then s.subs stream.taskId ++ [k] else s.subs id := fun id => by
    rw [System.subs, hsubs, Dict.get?_set]; split <;> rfl
  have hno : ∀ id, k ∉ s.subs id := fun id hmem => by
    obtain ⟨stream₁, hk₁, -⟩ := (h.mem_iff id k).1 hmem
    rw [hk] at hk₁; cases hk₁
  refine ⟨fun id l => ?_, fun id => ?_, fun id => ?_, fun l hl => ?_⟩
  · rw [hsubs', hstreams, Dict.get?_set]
    by_cases hlk : l = k
    · subst hlk
      simp only [↓reduceIte, Option.some.injEq, exists_eq_left', hreg, and_true]
      split
      · rename_i heq; simp [heq]
      · rename_i hne; simp [hno id, Ne.symm hne]
    · simp only [hlk, ↓reduceIte, ← h.mem_iff]
      split
      · rename_i heq; subst heq; simp [hlk]
      · rfl
  · rw [hsubs']
    split
    · exact List.nodup_append.2 ⟨h.nodup _, List.nodup_singleton k, fun a ha b hb hab =>
        hno _ (List.mem_singleton.1 hb ▸ hab ▸ ha)⟩
    · exact h.nodup id
  · rw [hsubs, Dict.get?_set]
    split
    · simp
    · exact h.nonempty id
  · rw [hstreams, Dict.get?_set] at hl
    split at hl
    · cases hl
    · rename_i hlk
      rw [hqueues l hlk]; exact h.unused l hl

end Node.Registered

/-! ## A process seen from one stream -/

namespace Node

/-- The mailbox of a stream of the task. -/
def box (s : Node) (id : TaskId) (k : SubId) : Option (Mailbox TaskStatusResponse) :=
  match s.streams.get? k with
  | none => none
  | some stream =>
    if stream.taskId = id then some ⟨stream.phase, stream.delivered, (s.queues.get? k).getD []⟩ else none

/-- The worker has written the envelope of the task and not yet published it. -/
def publishPending (s : Node) (id : TaskId) : Bool :=
  match s.worker.stage id with
  | some .marked | some .started | some (.finished _) | some .persisted => true
  | _ => false

/-- The snapshot of a task, and the mailbox of a stream. -/
def observed (s : Node) (id : TaskId) (k : SubId) : Observer TaskStatusResponse where
  current := (s.tasks.get? id).map (·.snapshot)
  dirty := s.publishPending id
  box := s.box id k

/-- What an event is to a stream of the task. -/
def observerEvent (P : Pydantic) (id : TaskId) (k : SubId) (s : Node) : NodeEvent → ObserverEvent TaskStatusResponse
  | .submit id' request _ =>
    if id' = id then .appear (TaskEnvelope.snapshot { taskId := id, request := request }) else .other
  | .publish id' => if id' = id then .publish else .other
  | .work => match s.worker.stage id, s.tasks.get? id with
    | some .taken, some task => .write (TaskEnvelope.snapshot { task with status := .running })
    | some .started, _ | some .persisted, _ => .flush
    | _, _ => .other
  | .run outcome => match s.worker.stage id, s.tasks.get? id with
    | some .running, some task => .write (task.settle outcome).snapshot
    | _, _ => .other
  | .subscribe k' id' =>
    if k' = k ∧ id' = id then
      match s.getStatus P id with
      | .ok snapshot => .subscribe snapshot
      | .error _ => .refuse
    else .other
  | .next k' => if k' = k ∧ (s.box id k).isSome then .next else .other
  | .resume k' => if k' = k ∧ (s.box id k).isSome then .resume else .other
  | .close k' => if k' = k ∧ (s.box id k).isSome then .close else .other
  | _ => .other

/-- A terminal snapshot. -/
def terminalSnapshot (snapshot : TaskStatusResponse) : Bool := snapshot.status.terminal

variable {s s' : Node} {id : TaskId} {k : SubId}

theorem box_congr (hstreams : s'.streams.get? k = s.streams.get? k) (hqueues : s'.queues.get? k = s.queues.get? k) :
    s'.box id k = s.box id k := by
  rw [box, box, hstreams, hqueues]

theorem mem_subs_of_box (h : s.Registered) {b : Mailbox TaskStatusResponse} (hb : s.box id k = some b)
    (hreg : b.phase.registered = true) : k ∈ s.subs id := by
  unfold box at hb
  split at hb
  · cases hb
  · rename_i stream hk
    obtain ⟨hid, hb⟩ := Option.ite_none_right_eq_some.1 hb
    cases hb
    exact (h.mem_iff id k).2 ⟨stream, hk, hid, hreg⟩

/-- A publication reaches the streams of its task. -/
theorem box_broadcast (id : TaskId) (k : SubId) (h : s.Registered) {id' : TaskId} {v : TaskStatusResponse}
    (hstreams : s'.streams = s.streams) (hqueues : s'.queues = (s.broadcast id' v).queues) :
    s'.box id k = if id' = id then (s.box id k).map (·.post v) else s.box id k := by
  have hget : s'.queues.get? k =
      if k ∈ s.subs id' then some ((s.queues.get? k).getD [] ++ [v]) else s.queues.get? k := by
    rw [hqueues]; exact get?_putAll s.queues (h.nodup id') v k
  simp only [box, hstreams, hget]
  cases hk : s.streams.get? k with
  | none => simp
  | some stream =>
    have hmem : k ∈ s.subs id' ↔ stream.taskId = id' ∧ stream.phase.registered = true := by
      rw [h.mem_iff, hk]; simp
    by_cases hid : id' = id
    · subst hid
      by_cases hs : stream.taskId = id'
      · cases hreg : stream.phase.registered <;> simp [hmem, hs, hreg, Mailbox.post]
      · simp [hs]
    · by_cases hs : stream.taskId = id
      · have hno : k ∉ s.subs id' := fun hmem' => hid (by rw [← (hmem.1 hmem').1, hs])
        simp [hid, hs, hno]
      · simp [hid, hs]

/-- The other coroutines write nothing of the streams but publications. -/
theorem quiet_streams {e : NodeEvent} (h : (node P).step s e = some s') (hs : e.ofStream = false)
    (hc : e.crashes = false) :
    s'.subscribers = s.subscribers ∧ s'.streams = s.streams ∧
      (s'.queues = s.queues ∨ ∃ id v, s'.queues = (s.broadcast id v).queues ∧
        (s.subs id ≠ [] → s.getStatus P id = .ok v)) := by
  cases nodeStep h with
  | publish _ hv | announce _ hv | finish _ hv => exact ⟨rfl, rfl, .inr ⟨_, _, rfl, hv.current⟩⟩
  | subscribe | refuse | next | leave | await | close => cases hs
  | crash => cases hc
  | _ => exact ⟨rfl, rfl, .inl rfl⟩

theorem Registered.quiet (hr : s.Registered) (hsubs : s'.subscribers = s.subscribers)
    (hstreams : s'.streams = s.streams)
    (hqueues : s'.queues = s.queues ∨ ∃ id v, s'.queues = (s.broadcast id v).queues) : s'.Registered := by
  have hsubs' : ∀ id, s'.subs id = s.subs id := fun id => by rw [System.subs, System.subs, hsubs]
  refine ⟨fun id k => ?_, fun id => ?_, fun id => ?_, fun k hk => ?_⟩
  · rw [hsubs', hstreams]; exact hr.mem_iff id k
  · rw [hsubs']; exact hr.nodup id
  · rw [hsubs]; exact hr.nonempty id
  · rw [hstreams] at hk
    rcases hqueues with hqueues | ⟨id, v, hqueues⟩
    · rw [hqueues]; exact hr.unused k hk
    · have hno : k ∉ s.subs id := fun hmem => by
        obtain ⟨stream, hk', -⟩ := (hr.mem_iff id k).1 hmem
        rw [hk] at hk'; cases hk'
      rw [hqueues]
      exact (get?_putAll s.queues (hr.nodup id) v k).trans ((if_neg hno).trans (hr.unused k hk))

theorem registered_of_empty (hsubs : s.subscribers = .empty) (hstreams : s.streams = .empty)
    (hqueues : s.queues = .empty) : s.Registered :=
  ⟨fun id k => by simp [System.subs, hsubs, hstreams], fun id => by simp [System.subs, hsubs],
    fun id => by simp [hsubs], fun k _ => by rw [hqueues]; rfl⟩

/-- Every step keeps the sets of subscribers; a crash empties them. -/
theorem registered_step {e : NodeEvent} (h : (node P).step s e = some s') (hr : s.Registered) : s'.Registered := by
  cases nodeStep h with
  | @subscribe k id v hk hv =>
    have hreg : ({ taskId := id } : Stream).phase.registered = true := rfl
    exact hr.enter hk hreg rfl rfl fun l hl => Dict.get?_set_ne _ _ hl
  | @refuse k id exc hk hexc =>
    have hreg : ({ taskId := id, phase := .raised } : Stream).phase.registered = true := rfl
    exact hr.enter hk hreg rfl rfl fun l _ => rfl
  | @next k stream v rest hk hq hphase =>
    have hid : ({ stream with phase := .yielded, delivered := stream.delivered ++ [v] } : Stream).taskId =
      stream.taskId := rfl
    exact hr.move hk hid (by rw [hphase]; rfl) rfl rfl fun l hl => Dict.get?_set_ne _ _ hl
  | @await k stream v hk hphase =>
    have hid : ({ stream with phase := .waiting } : Stream).taskId = stream.taskId := rfl
    exact hr.move hk hid (by rw [hphase]; rfl) rfl rfl fun l _ => rfl
  | leave hk | close hk => exact hr.leave hk rfl rfl rfl rfl
  | publish | announce | finish => exact hr.quiet rfl rfl (.inr ⟨_, _, rfl⟩)
  | crash => exact registered_of_empty rfl rfl rfl
  | _ => exact hr.quiet rfl rfl (.inl rfl)

/-- `_publish_status` posts the current snapshot to the streams of its task. -/
theorem box_posts (id : TaskId) (k : SubId) (hr : s.Registered) {id' : TaskId} {v : TaskStatusResponse}
    (hv : s.Posts P id' v) (hknown : id' = id → ∃ task, s.tasks.get? id = some task) {c : Control}
    (hc : c.streams = s.streams) :
    ∃ v', (id' = id → (s.tasks.get? id).map (·.snapshot) = some v') ∧
      box ⟨s.broadcast id' v, c⟩ id k = if id' = id then (s.box id k).map (·.post v') else s.box id k := by
  by_cases hid : id' = id
  · obtain ⟨task, ht⟩ := hknown hid
    subst hid
    rw [hv.snapshot ht]
    exact ⟨task.snapshot, fun _ => by rw [ht, Option.map_some], box_broadcast id' k hr hc rfl⟩
  · exact ⟨v, fun hid' => absurd hid' hid, box_broadcast id k hr hc rfl⟩

/-- The events of the streams, seen from one of them. -/
theorem observed_stream {e : NodeEvent} (h : (node P).step s e = some s') (he : e.ofStream = true)
    (hr : s.Registered) :
    (observer terminalSnapshot).step (s.observed id k) (s.observerEvent P id k e) = some (s'.observed id k) := by
  cases nodeStep h with
  | @subscribe k' id' v hk' hv =>
    by_cases hk : k' = k
    · subst hk
      by_cases hid : id' = id
      · subst hid
        -- the first snapshot is the one of the envelope, if there is one
        have hfirst : ∀ task, s.tasks.get? id' = some task → v = task.snapshot := fun task ht => by
          simp only [System.getStatus, ht, Except.ok.injEq] at hv
          exact hv.symm
        cases ht : s.tasks.get? id' with
        | none => simp [observerEvent, observed, publishPending, observer, box, hk', ht, hv]
        | some task => simp [observerEvent, observed, publishPending, observer, box, hk', ht, hv, hfirst task ht]
      · simp [observerEvent, observed, publishPending, observer, box, hk', hid]
    · simp [observerEvent, observed, publishPending, observer, box, hk, Ne.symm hk, Dict.get?_set]
  | @refuse k' id' exc hk' hexc =>
    by_cases hk : k' = k
    · subst hk
      by_cases hid : id' = id
      · subst hid
        have hnone : s.tasks.get? id' = none := by
          cases ht : s.tasks.get? id' with
          | none => rfl
          | some task => simp only [System.getStatus, ht] at hexc; cases hexc
        simp [observerEvent, observed, publishPending, observer, box, hk', hnone, hexc, hr.unused k' hk']
      · simp [observerEvent, observed, publishPending, observer, box, hk', hid]
    · simp [observerEvent, observed, publishPending, observer, box, hk, Ne.symm hk, Dict.get?_set]
  | @next k' stream v rest hk' hq hphase =>
    by_cases hk : k' = k
    · subst hk
      by_cases hid : stream.taskId = id <;>
        simp [observerEvent, observed, publishPending, observer, box, hk', hq, hid, hphase]
    · simp [observerEvent, observed, publishPending, observer, box, hk, Ne.symm hk, Dict.get?_set]
  | @leave k' stream v hk' hphase hlast hterm | @await k' stream v hk' hphase hlast hterm =>
    by_cases hk : k' = k
    · subst hk
      by_cases hid : stream.taskId = id <;>
        simp [observerEvent, observed, publishPending, observer, box, hk', hid, hphase, hlast, terminalSnapshot,
          hterm]
    · simp [observerEvent, observed, publishPending, observer, box, hk, Ne.symm hk, Dict.get?_set]
  | @close k' stream hk' hphase =>
    by_cases hk : k' = k
    · subst hk
      by_cases hid : stream.taskId = id <;>
        simp [observerEvent, observed, publishPending, observer, box, hk', hid, hphase]
    · simp [observerEvent, observed, publishPending, observer, box, hk, Ne.symm hk, Dict.get?_set]
  | _ => cases he

/-- Every step of a started process is a step of the register and the
subscriber. -/
theorem observed_step {e : NodeEvent} (h : (node P).step s e = some s') (he : e.restarts = false)
    (hr : s.Registered) (hp : (s.life id).Placed) :
    (observer terminalSnapshot).step (s.observed id k) (s.observerEvent P id k e) = some (s'.observed id k) := by
  have hknown : ∀ stage, s.worker.stage id = some stage → stage ≠ .taken →
      ∃ task, s.tasks.get? id = some task := fun stage hs hne => hp.known hs hne
  cases nodeStep h with
  | @submit id' request create repo fresh hrepo =>
    by_cases hid : id' = id
    · subst hid
      obtain ⟨-, -, htask, -, -, hstage, hstream⟩ := fresh
      rw [Option.isNone_iff_eq_none] at hstage
      have hbox : s.box id' k = none := by
        unfold box
        cases hk : s.streams.get? k with
        | none => rfl
        | some stream => exact if_neg (hstream stream ((Dict.mem_values _).2 ⟨k, hk⟩))
      unfold box at hbox
      simp [observerEvent, observer, observed, publishPending, hstage, htask, box, hbox]
    · simp [observerEvent, observer, observed, publishPending, hid, Ne.symm hid, box, Dict.get?_set]
  | enqueue | idle => rfl
  | @publish id' v hsub hv =>
    have hknown : id' = id → ∃ task, s.tasks.get? id = some task := fun hid => by
      cases hl : s.tasks.get? id with
      | none =>
        have hno := (hp.of_none hl).1
        rw [hid] at hsub
        exact absurd (hsub.symm.trans hno) (by simp)
      | some task => exact ⟨task, rfl⟩
    obtain ⟨v', hv', hbox⟩ := box_posts id k hr hv hknown
      (c := { s.toControl with submits := s.submits.erase id', accepted := s.accepted ++ [id'] }) rfl
    by_cases hid : id' = id
    · subst hid
      simp [observerEvent, observed, publishPending, observer, hbox, hv']
    · simp [observerEvent, observed, publishPending, observer, hid, hbox]
  | @dequeue id' queue hw hq =>
    by_cases hid : id' = id <;>
      simp [observerEvent, observed, publishPending, observer, hw, Worker.stage, box, hid]
  | @drop id' hw ht =>
    by_cases hid : id' = id
    · subst hid
      simp [observerEvent, observed, publishPending, observer, hw, Worker.stage, ht, box]
    · simp [observerEvent, observed, publishPending, observer, hw, Worker.stage, hid, box]
  | @mark id' task hw ht =>
    by_cases hid : id' = id
    · subst hid
      simp [observerEvent, observed, publishPending, observer, hw, Worker.stage, ht, box]
    · simp [observerEvent, observed, publishPending, observer, hw, Worker.stage, hid, Ne.symm hid, box, Dict.get?_set]
  | @begin id' hw | @persist id' outcome hw =>
    by_cases hid : id' = id <;>
      simp [observerEvent, observed, publishPending, observer, hw, Worker.stage, hid, box]
  | @announce id' v hw hv =>
    obtain ⟨v', hv', hbox⟩ := box_posts id k hr hv
      (fun hid => hknown .started (by simp [hw, Worker.stage, hid]) (by simp))
      (c := { s.toControl with worker := .holding id' .running }) rfl
    by_cases hid : id' = id
    · subst hid
      simp [observerEvent, observed, publishPending, observer, hw, Worker.stage, hbox, hv']
    · simp [observerEvent, observed, publishPending, observer, hw, Worker.stage, hid, hbox]
  | @finish id' v hw hv =>
    obtain ⟨v', hv', hbox⟩ := box_posts id k hr hv
      (fun hid => hknown .persisted (by simp [hw, Worker.stage, hid]) (by simp))
      (c := { s.toControl with worker := .polling }) rfl
    by_cases hid : id' = id
    · subst hid
      simp [observerEvent, observed, publishPending, observer, hw, Worker.stage, hbox, hv']
    · simp [observerEvent, observed, publishPending, observer, hw, Worker.stage, hid, hbox]
  | @run id' task outcome hw ht =>
    by_cases hid : id' = id
    · subst hid
      simp [observerEvent, observed, publishPending, observer, hw, Worker.stage, ht, box, System.get?_settle]
    · simp [observerEvent, observed, publishPending, observer, hw, Worker.stage, hid, Ne.symm hid, box,
        System.get?_settle]
  | subscribe | refuse | next | leave | await | close => exact observed_stream h rfl hr
  | startAgain | start | stop | crash => cases he

/-- The worker writes `running` over `queued` and a terminal status over
`running`. -/
theorem observed_monotone (hp : (s.life id).Placed) (e : NodeEvent) :
    (s.observerEvent P id k e).Monotone (·.status.rank) terminalSnapshot (s.observed id k) := by
  cases e with
  | work =>
    simp only [observerEvent]
    split
    · rename_i task hstage ht
      have hq := (hp.of_some ht).2.queued (.inr hstage) (by rw [Life.claims_of_stage hstage]; omega)
      intro v hv
      obtain ⟨task', ht', rfl⟩ := Option.map_eq_some_iff.1 hv
      rw [ht, Option.some.injEq] at ht'
      subst ht'
      simp [terminalSnapshot, TaskEnvelope.snapshot, hq, TaskStatus.terminal, TaskStatus.rank]
    · trivial
    · trivial
    · trivial
  | run outcome =>
    simp only [observerEvent]
    split
    · rename_i task hstage ht
      have hf := (hp.of_some ht).2
      have hrun : task.status = .running := by
        rwa [Life.Fits, show (s.life id).stage = some .running from hstage] at hf
      intro v hv
      obtain ⟨task', ht', rfl⟩ := Option.map_eq_some_iff.1 hv
      rw [ht, Option.some.injEq] at ht'
      subst ht'
      cases outcome <;>
        simp [terminalSnapshot, TaskEnvelope.snapshot, TaskEnvelope.settle, hrun, TaskStatus.terminal,
          TaskStatus.rank]
    · trivial
  | submit _ _ _ | publish _ | subscribe _ _ | next _ | resume _ | close _ =>
    simp only [observerEvent]
    split <;> (try split) <;> trivial
  | _ => trivial

/-- What holds for the streams of a task that no start requeues. -/
structure Streaming (s : Node) (id : TaskId) : Prop where
  registered : s.Registered
  placed : (s.life id).Placed
  faithful : ∀ k, (s.observed id k).Faithful (·.status.rank) terminalSnapshot

theorem streaming_keeps (P : Pydantic) (id : TaskId) :
    (node P).Keeps (fun _ e => e.restarts = false) fun s => s.Streaming id := by
  intro s e s' he h hs
  have hrequeue : s.requeues P id e = false := by cases e <;> first | rfl | cases he
  exact ⟨registered_step h hs.registered, placed_keeps P id hrequeue h hs.placed, fun k =>
    faithful_keeps (observed_monotone hs.placed e) (observed_step h he hs.registered hs.placed) (hs.faithful k)⟩

/-- A process that is about to start, over a queue and a repository that may
hold anything. -/
def Unstarted (s : Node) : Prop :=
  s.toTaskManager = {} ∧ s.submits = .empty ∧ s.streams = .empty ∧ s.worker = .off

theorem streaming_started {faults : TaskId → Fault Exc} {records : List TaskRecord} (h₀ : s.Unstarted)
    (h : (node P).step s (.start faults records) = some s') (hm : s.requeues P id (.start faults records) = false) :
    s'.Streaming id := by
  obtain ⟨hmanager, hsubmits, hstreams, hworker⟩ := h₀
  have htasks : s.tasks = .empty := congrArg TaskManager.tasks hmanager
  have hsubs : s.subscribers = .empty := congrArg TaskManager.subscribers hmanager
  have hqueues : s.queues = .empty := congrArg TaskManager.queues hmanager
  have hreg : s.Registered := registered_of_empty hsubs hstreams hqueues
  refine ⟨registered_step h hreg, placed_keeps P id hm h (Initial.placed ⟨htasks, hsubmits, hworker⟩ id), ?_⟩
  intro k v _ b hb
  have hbox : s'.box id k = none := by
    rw [box, (quiet_streams h rfl rfl).2.1, hstreams]; rfl
  exact absurd (hb.symm.trans hbox) (by simp)

/-! ## Every stream ends -/

/-- The snapshots queued for or delivered to a stream. -/
def received (s : Node) (k : SubId) (stream : Stream) : List TaskStatusResponse :=
  stream.delivered ++ (s.queues.get? k).getD []

/-- The next steps of a stream end it. -/
def Ends (P : Pydantic) (s : Node) (k : SubId) : Prop :=
  ∃ es s' stream, (∀ e ∈ es, e = .next k ∨ e = .resume k) ∧ (node P).run s es = some s' ∧
    s'.streams.get? k = some stream ∧ stream.phase = .finished

theorem Ends.cons {e : NodeEvent} (h : (node P).step s e = some s') (he : e = .next k ∨ e = .resume k)
    (hs : s'.Ends P k) : s.Ends P k := by
  obtain ⟨es, s'', stream, hes, hrun, hk, hphase⟩ := hs
  refine ⟨e :: es, s'', stream, fun e' he' => ?_, by rw [Machine.run_cons_some _ h, hrun], hk, hphase⟩
  rcases List.mem_cons.1 he' with rfl | he'
  · exact he
  · exact hes e' he'

theorem next_step {stream : Stream} {snapshot : TaskStatusResponse} {rest : List TaskStatusResponse}
    (hk : s.streams.get? k = some stream) (hphase : stream.phase = .waiting)
    (hq : s.queues.get? k = some (snapshot :: rest)) :
    (node P).step s (.next k) = some { s with
      queues := s.queues.set k rest
      streams := s.streams.set k { stream with phase := .yielded, delivered := stream.delivered ++ [snapshot] } } := by
  simp only [node, nextStep, hk, hq, hphase, ↓reduceIte]

theorem resume_step {stream : Stream} {snapshot : TaskStatusResponse} (hk : s.streams.get? k = some stream)
    (hphase : stream.phase = .yielded) (hlast : stream.delivered.getLast? = some snapshot) :
    (node P).step s (.resume k) = some (if snapshot.status.terminal then
      { s with
        toSystem := s.unsubscribe k stream.taskId
        streams := s.streams.set k { stream with phase := .finished } }
      else { s with streams := s.streams.set k { stream with phase := .waiting } }) := by
  simp only [node, resumeStep, hk, hphase, hlast]
  split <;> rfl

/-- A stream with a terminal snapshot in its queue yields up to it and ends. -/
theorem ends_of_terminal {queue : List TaskStatusResponse} {stream : Stream} (hk : s.streams.get? k = some stream)
    (hphase : stream.phase = .waiting) (hq : (s.queues.get? k).getD [] = queue)
    (ht : ∃ x ∈ queue, x.status.terminal = true) : s.Ends P k := by
  induction queue generalizing s stream with
  | nil => obtain ⟨x, hx, -⟩ := ht; cases hx
  | cons snapshot rest ih =>
    have hq' : s.queues.get? k = some (snapshot :: rest) := by
      cases hget : s.queues.get? k with
      | none => rw [hget] at hq; cases hq
      | some queue => rw [hget] at hq; exact congrArg some hq
    refine Ends.cons (next_step hk hphase hq') (.inl rfl) ?_
    refine Ends.cons (resume_step (Dict.get?_set_self ..) rfl List.getLast?_concat) (.inr rfl) ?_
    split
    · exact ⟨[], _, _, fun e he => (List.not_mem_nil he).elim, rfl, Dict.get?_set_self .., rfl⟩
    · rename_i hterm
      obtain ⟨x, hx, hxt⟩ := ht
      have hrest : x ∈ rest := (List.mem_cons.1 hx).resolve_left fun heq => hterm (heq ▸ hxt)
      exact ih (Dict.get?_set_self ..) rfl (by rw [Dict.get?_set_self, Option.getD_some]) ⟨x, hrest, hxt⟩

/-- A stream that is suspended at a terminal snapshot, or has one in its queue,
ends. -/
theorem ends_of_yielded {stream : Stream} (hk : s.streams.get? k = some stream) (hphase : stream.phase = .yielded)
    {snapshot : TaskStatusResponse} (hlast : stream.delivered.getLast? = some snapshot)
    (ht : snapshot.status.terminal = true ∨ ∃ x ∈ (s.queues.get? k).getD [], x.status.terminal = true) :
    s.Ends P k := by
  refine Ends.cons (resume_step hk hphase hlast) (.inr rfl) ?_
  split
  · exact ⟨[], _, _, fun e he => (List.not_mem_nil he).elim, rfl, Dict.get?_set_self .., rfl⟩
  · rename_i hterm
    exact ends_of_terminal (Dict.get?_set_self ..) rfl rfl (ht.resolve_left hterm)

/-- What a stream of a task reports while its envelope is `task`. -/
structure Reports (P : Pydantic) (s : Node) (k : SubId) (stream : Stream) (task : TaskEnvelope) : Prop where
  sorted : (s.received k stream).Pairwise fun x y => x.status.rank ≤ y.status.rank
  latest : stream.phase.registered = true → s.publishPending stream.taskId = false →
    (s.received k stream).getLast? = some task.snapshot
  before_last : ∀ x ∈ stream.delivered.dropLast, x.status.terminal = false
  finished : stream.phase = .finished → stream.delivered.getLast? = some task.snapshot ∧ task.status.terminal = true
  unregistered : stream.phase.registered = false → ∀ id, k ∉ s.subs id
  ends : stream.phase.registered = true → task.status.terminal = true → s.publishPending stream.taskId = false →
    s.Ends P k

theorem Streaming.reports (h : s.Streaming id) {task : TaskEnvelope} (ht : s.tasks.get? id = some task)
    {stream : Stream} (hk : s.streams.get? k = some stream) (hid : stream.taskId = id) :
    s.Reports P k stream task := by
  subst hid
  have hcurrent : (s.observed stream.taskId k).current = some task.snapshot := by
    simp only [observed, ht, Option.map_some]
  have hbox : s.box stream.taskId k = some ⟨stream.phase, stream.delivered, (s.queues.get? k).getD []⟩ := by
    simp only [box, hk, ↓reduceIte]
  have hf := h.faithful k _ hcurrent _ hbox
  refine ⟨hf.sorted, hf.latest, hf.dropLast, fun hphase => ?_, fun hend id hmem => ?_, fun hreg hterm hpub => ?_⟩
  · obtain ⟨x, hx, hxt⟩ := hf.finished hphase
    obtain ⟨front, hdelivered⟩ := List.getLast?_eq_some_iff.1 hx
    have heq : x = task.snapshot := hf.final_eq x
      (List.mem_append_left _ (by rw [hdelivered]; exact List.mem_concat_self)) hxt
    rw [heq] at hx hxt
    exact ⟨hx, hxt⟩
  · obtain ⟨stream', hk', -, hreg⟩ := (h.registered.mem_iff id k).1 hmem
    rw [hk, Option.some.injEq] at hk'
    rw [← hk', hend] at hreg; cases hreg
  · -- the last snapshot is terminal: in the queue, or the one just yielded
    have hlatest : (stream.delivered ++ (s.queues.get? k).getD []).getLast? = some task.snapshot :=
      hf.latest hreg hpub
    have hmem := List.mem_append.1 (List.mem_of_getLast? hlatest)
    have hterm' : terminalSnapshot task.snapshot = true := hterm
    cases hphase : stream.phase with
    | finished | closed => rw [hphase] at hreg; cases hreg
    | raised => exact absurd hphase hf.phase_ne
    | waiting =>
      have hno : task.snapshot ∉ stream.delivered := fun hin => by
        have hfalse := hf.waiting hphase _ hin
        rw [hterm'] at hfalse; cases hfalse
      exact ends_of_terminal hk hphase rfl ⟨_, hmem.resolve_left hno, hterm⟩
    | yielded =>
      obtain ⟨snapshot, hlast⟩ := Option.isSome_iff_exists.1 (List.getLast?_isSome.2 (hf.yielded hphase))
      obtain ⟨front, hdelivered⟩ := List.getLast?_eq_some_iff.1 hlast
      simp only at hdelivered
      refine ends_of_yielded hk hphase hlast ?_
      refine hmem.imp (fun hin => ?_) fun hin => ⟨_, hin, hterm⟩
      have hno : task.snapshot ∉ front := fun hfront => by
        have hfalse := hf.dropLast _ (by rw [hdelivered, List.dropLast_concat]; exact hfront)
        rw [hterm'] at hfalse; cases hfalse
      rw [hdelivered, List.mem_append, List.mem_singleton] at hin
      rw [← hin.resolve_left hno]
      exact hterm

end Node

/-- In every state of a started process: if the start requeued no task, every
stream of a task in memory reports it faithfully, and no set of subscribers is
empty. -/
theorem stream_faithful {s₀ s : Node} {faults : TaskId → Fault Exc} {records : List TaskRecord} {es : List NodeEvent}
    (h₀ : s₀.Unstarted) (h : (node P).run s₀ (.start faults records :: es) = some s)
    (hes : ∀ e ∈ es, e.restarts = false) {id : TaskId} (hm : s₀.requeues P id (.start faults records) = false)
    {task : TaskEnvelope} (ht : s.tasks.get? id = some task) :
    (∀ k stream, s.streams.get? k = some stream → stream.taskId = id → s.Reports P k stream task) ∧
      ∀ id', s.subscribers.get? id' ≠ some [] := by
  obtain ⟨s₁, h₁, h₂⟩ := Option.bind_eq_some_iff.1 h
  have hs : s.Streaming id := (node P).run_inv (Node.streaming_keeps P id) ((node P).meets_of_forall hes) h₂
    (Node.streaming_started h₀ h₁ hm)
  exact ⟨fun k stream hk hid => hs.reports ht hk hid, hs.registered.nonempty⟩

/-- A process that starts over a queue with a task in it and the task's row. -/
def leftover : Node where
  queue := ["t"]
  repo := (TaskRepository.empty .database).put (.ofRequest "t" hello)

/-- The id is taken a second time after the task completed. -/
def requeueStreamEvents : List NodeEvent :=
  .start noFault [.ofRequest "t" hello] :: .subscribe 0 "t" :: iterationEvents (.ok .sample) ++
    [.dequeue, .work, .work, .work]

/-- The stream gets `running` after `completed`. -/
theorem requeued_stream_decreases :
    ((node .strict).run leftover requeueStreamEvents).map (fun s =>
      (s.streams.get? 0).map fun stream => (s.received 0 stream).map (·.status)) =
      some (some [.queued, .running, .completed, .running]) := by
  decide

/-- A stream that subscribes before the execution, yields everything and ends. -/
def streamEvents : List NodeEvent :=
  [.submit "t" hello .none, .enqueue "t" .none, .subscribe 0 "t", .publish "t"] ++ iterationEvents (.ok .sample) ++
    [.next 0, .resume 0, .next 0, .resume 0, .next 0, .resume 0, .next 0, .resume 0]

/-- `stream_faithful` for a stream that has ended. -/
theorem stream_faithful_ended :
    ∃ s stream task, (node .strict).run (.init .memory) (.start noFault [] :: streamEvents) = some s ∧
      stream.phase = .finished ∧ s.Reports .strict 0 stream task := by
  have hrun : ((node .strict).run (.init .memory) (.start noFault [] :: streamEvents)).map (fun s =>
      (((s.streams.get? 0).map fun stream => (stream.taskId, stream.phase)), (s.tasks.get? "t").isSome)) =
      some (some ("t", .finished), true) := by
    decide
  obtain ⟨s, hs, hq⟩ := Option.map_eq_some_iff.1 hrun
  simp only [Prod.mk.injEq] at hq
  obtain ⟨stream, hstream, hphase⟩ := Option.map_eq_some_iff.1 hq.1
  obtain ⟨task, htask⟩ := Option.isSome_iff_exists.1 hq.2
  simp only [Prod.mk.injEq] at hphase
  exact ⟨s, stream, task, hs, hphase.2,
    (stream_faithful ⟨rfl, rfl, rfl, rfl⟩ hs (by decide) (by decide) htask).1 0 stream hstream hphase.1⟩

end Ochestrate
