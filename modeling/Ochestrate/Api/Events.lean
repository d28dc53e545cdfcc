import Ochestrate.Api.Tasks
import Ochestrate.Framework.EventSource
import Ochestrate.Schemas.JsonText
import Ochestrate.Storage.TaskTables

/-!
# The event stream of a task

`_format_sse` and `event_stream` of `app/api/v1/tasks.py`: the response is text, made
from the snapshots that a subscription yields, up to the first at which the client is
disconnected and not past a terminal one. `events_faithful` is about what a client
has read at any moment, cut anywhere: it has received the first of these snapshots,
whole and in order, and a terminal one among them is how the task ended.
-/

namespace Ochestrate

open EventSource

def TaskStatusResponse.modelDump (snapshot : TaskStatusResponse) : Json :=
  .obj [("task_id", .str snapshot.taskId), ("status", .str snapshot.status.value),
    ("trace_id", .ofOption .str snapshot.traceId), ("result", .ofOption UnifiedResponse.modelDump snapshot.result),
    ("error", .ofOption .str snapshot.error)]

/-- `_format_sse` -/
def formatSse (event payload : List Char) : List Char :=
  ['e', 'v', 'e', 'n', 't', ':', ' '] ++ event ++ ['\n', 'd', 'a', 't', 'a', ':', ' '] ++ payload ++ ['\n', '\n']

/-- `"task_status"` -/
def taskStatus : List Char := ['t', 'a', 's', 'k', '_', 's', 't', 'a', 't', 'u', 's']

/-- The chunks of `event_stream`: each snapshot comes with the answer of
`request.is_disconnected()`. -/
def eventStream (F : JsonFormat) : List (TaskStatusResponse × Bool) → List (List Char)
  | [] => []
  | (current, disconnected) :: rest =>
    if disconnected then []
    else formatSse taskStatus (F.write current.modelDump) ::
      if current.status.terminal then [] else eventStream F rest

/-- What a client makes of an event. -/
def decodeEvent (event : SentEvent) : Option Json := if event.type = taskStatus then Json.loads event.data else none

/-! ## Frames -/

variable {F : JsonFormat}

/-- The event of a snapshot. -/
def sentEvent (F : JsonFormat) (snapshot : TaskStatusResponse) : SentEvent := ⟨taskStatus, F.write snapshot.modelDump⟩

theorem frame_sentEvent (snapshot : TaskStatusResponse) :
    frame (sentEvent F snapshot) = formatSse taskStatus (F.write snapshot.modelDump) := by
  simp [frame, typeLine, dataLine, sentEvent, formatSse]

theorem plain_sentEvent {snapshot : TaskStatusResponse} (h : F.Reads snapshot.modelDump) :
    (sentEvent F snapshot).Plain :=
  ⟨(by decide : taskStatus ≠ []), (by decide : '\n' ∉ taskStatus ∧ '\r' ∉ taskStatus), JsonFormat.newline_notMem_write h,
    fun hmem => absurd (JsonFormat.printable_write h '\r' hmem) (by decide)⟩

theorem decodeEvent_sentEvent {snapshot : TaskStatusResponse} (h : F.Reads snapshot.modelDump) :
    decodeEvent (sentEvent F snapshot) = some snapshot.modelDump := by
  rw [decodeEvent, sentEvent, if_pos rfl, JsonFormat.loads_write h]

/-- The chunks are those of the first snapshots. -/
theorem eventStream_initial (items : List (TaskStatusResponse × Bool)) :
    eventStream F items <+: items.map fun item => frame (sentEvent F item.1) := by
  induction items with
  | nil => exact List.prefix_rfl
  | cons item items ih =>
    rw [eventStream, List.map_cons, frame_sentEvent]
    split
    · exact List.nil_prefix
    · refine List.cons_prefix_cons.2 ⟨rfl, ?_⟩
      split
      · exact List.nil_prefix
      · exact ih

/-- Nothing is left out for a client that stays, if only the last snapshot is
terminal. -/
theorem eventStream_connected {snapshots : List TaskStatusResponse}
    (h : ∀ x ∈ snapshots.dropLast, x.status.terminal = false) :
    eventStream F (snapshots.map fun x => (x, false)) = snapshots.map fun x => frame (sentEvent F x) := by
  induction snapshots with
  | nil => rfl
  | cons snapshot snapshots ih =>
    rw [List.map_cons, List.map_cons, eventStream, if_neg Bool.false_ne_true, frame_sentEvent]
    cases snapshots with
    | nil => simp [eventStream]
    | cons next snapshots =>
      rw [List.dropLast_cons_cons, List.forall_mem_cons] at h
      rw [if_neg (by rw [h.1]; decide), ih h.2]

theorem flatten_frames (snapshots : List TaskStatusResponse) :
    (snapshots.map fun x => frame (sentEvent F x)).flatten = (snapshots.map (sentEvent F)).flatMap frame := by
  rw [List.flatMap_map, List.flatMap_def]

theorem plain_sentEvents {snapshots : List TaskStatusResponse} (h : ∀ x ∈ snapshots, F.Reads x.modelDump) :
    ∀ event ∈ snapshots.map (sentEvent F), event.Plain := by
  intro event hevent
  obtain ⟨x, hx, rfl⟩ := List.mem_map.1 hevent
  exact plain_sentEvent (h x hx)

theorem map_decodeEvent {snapshots : List TaskStatusResponse} (h : ∀ x ∈ snapshots, F.Reads x.modelDump) :
    (snapshots.map (sentEvent F)).map decodeEvent = snapshots.map fun x => some x.modelDump := by
  rw [List.map_map]
  exact List.map_congr_left fun x hx => decodeEvent_sentEvent (h x hx)

theorem map_fst_zip_initial {α β : Type} (xs : List α) (ys : List β) : (xs.zip ys).map Prod.fst <+: xs := by
  induction xs generalizing ys with
  | nil => exact List.prefix_rfl
  | cons x xs ih =>
    cases ys with
    | nil => exact List.nil_prefix
    | cons y ys => exact List.cons_prefix_cons.2 ⟨rfl, ih ys⟩

/-- What a client has received of a response that is cut anywhere. -/
theorem received_eventStream {snapshots : List TaskStatusResponse} (h : ∀ x ∈ snapshots, F.Reads x.modelDump)
    (disconnected : List Bool) {text : List Char} (htext : text <+: (eventStream F (snapshots.zip disconnected)).flatten) :
    ∃ seen, seen <+: snapshots ∧ (received text).map decodeEvent = seen.map fun x => some x.modelDump := by
  have hzip : (snapshots.zip disconnected).map (fun item => frame (sentEvent F item.1)) <+:
      snapshots.map fun x => frame (sentEvent F x) := by
    rw [← Function.comp_def (fun x => frame (sentEvent F x)) Prod.fst, ← List.map_map]
    exact (map_fst_zip_initial ..).map _
  obtain ⟨rest, hrest⟩ := (eventStream_initial (F := F) _).trans hzip
  have hprefix : text <+: (snapshots.map (sentEvent F)).flatMap frame := by
    rw [← flatten_frames, ← hrest, List.flatten_append]
    exact htext.trans (List.prefix_append ..)
  have hreceived := received_cut (plain_sentEvents h) hprefix
  refine ⟨snapshots.take (received text).length, List.take_prefix .., ?_⟩
  conv_lhs => rw [List.prefix_iff_eq_take.1 hreceived]
  rw [← List.map_take, map_decodeEvent fun x hx => h x (List.mem_of_mem_take hx)]

/-- In every state of a started process whose start requeued no task: whatever part
of its response a client of a task's stream has read, it has received the first of
the snapshots that the stream yielded, in rising order, and a terminal one is how the
task ended. A client that stays receives them all, and if the stream has ended the
last of them is terminal. -/
theorem events_faithful {P : Pydantic} (F : JsonFormat) {s₀ s : Node} {faults : TaskId → Fault Exc}
    {records : List TaskRecord} {es : List NodeEvent} (h₀ : s₀.Unstarted)
    (h : (node P).run s₀ (.start faults records :: es) = some s) (hes : ∀ e ∈ es, e.restarts = false) {id : TaskId}
    (hm : s₀.requeues P id (.start faults records) = false) {task : TaskEnvelope} (ht : s.tasks.get? id = some task)
    {k : SubId} {stream : Stream} (hk : s.streams.get? k = some stream) (hid : stream.taskId = id)
    (hreads : ∀ x ∈ stream.delivered, F.Reads x.modelDump) :
    (∀ disconnected text, text <+: (eventStream F (stream.delivered.zip disconnected)).flatten →
      ∃ seen, seen <+: stream.delivered ∧ (received text).map decodeEvent = seen.map (fun x => some x.modelDump) ∧
        (seen.Pairwise fun x y => x.status.rank ≤ y.status.rank) ∧
        ∀ x ∈ seen, x.status.terminal = true → x = task.snapshot) ∧
      (received (eventStream F (stream.delivered.map fun x => (x, false))).flatten).map decodeEvent =
        stream.delivered.map (fun x => some x.modelDump) ∧
      (stream.phase = .finished → stream.delivered.getLast? = some task.snapshot ∧ task.status.terminal = true) := by
  obtain ⟨s₁, h₁, h₂⟩ := Option.bind_eq_some_iff.1 h
  have hs : s.Streaming id := (node P).run_inv (Node.streaming_keeps P id) ((node P).meets_of_forall hes) h₂
    (Node.streaming_started h₀ h₁ hm)
  have hreports : s.Reports P k stream task := hs.reports ht hk hid
  have hfinal : ∀ x ∈ stream.delivered, x.status.terminal = true → x = task.snapshot := by
    have hcurrent : (s.observed id k).current = some task.snapshot := by
      simp only [Node.observed, ht, Option.map_some]
    have hbox : s.box id k = some ⟨stream.phase, stream.delivered, (s.queues.get? k).getD []⟩ := by
      simp only [Node.box, hk, hid, ↓reduceIte]
    exact fun x hx => (hs.faithful k _ hcurrent _ hbox).final_eq x (List.mem_append_left _ hx)
  refine ⟨fun disconnected text htext => ?_, ?_, hreports.finished⟩
  · obtain ⟨seen, hseen, hdecoded⟩ := received_eventStream hreads disconnected htext
    have hsorted := (List.pairwise_append.1 hreports.sorted).1
    exact ⟨seen, hseen, hdecoded, hsorted.sublist hseen.sublist, fun x hx => hfinal x (hseen.subset hx)⟩
  · rw [eventStream_connected hreports.before_last, flatten_frames, received_frames (plain_sentEvents hreads),
      map_decodeEvent hreads]

/-- The format of `model_dump_json`; one float is enough here. -/
def pydanticFormat : JsonFormat where
  ascii := false
  spaced := false
  floatText _ := ['0', '.', '0']

theorem readsItems_map {α : Type} {f : α → Json} {items : List α} (h : ∀ item ∈ items, F.Reads (f item)) :
    F.ReadsItems (items.map f) := by
  induction items with
  | nil => trivial
  | cons item items ih =>
    rw [List.forall_mem_cons] at h
    exact ⟨h.1, ih h.2⟩

theorem reads_ofOption {α : Type} {f : α → Json} {o : Option α} (h : ∀ a, o = some a → F.Reads (f a)) :
    F.Reads (.ofOption f o) := by
  cases o with
  | none => trivial
  | some a => exact h a rfl

theorem reads_str (o : Option String) : F.Reads (.ofOption .str o) := reads_ofOption fun _ _ => trivial

/-- A response is read back if its floats and the values of its actions are. -/
theorem UnifiedResponse.reads_modelDump {r : UnifiedResponse} (hconfidence : F.ReadsFloat r.confidence)
    (hcitations : ∀ c ∈ r.citations, F.ReadsFloat c.score)
    (hactions : ∀ a ∈ r.actions, F.ReadsFields a.output.entries ∧ F.ReadsFields a.policyApplied.entries) :
    F.Reads r.modelDump := by
  refine ⟨by simp, trivial, readsItems_map fun c hc => ?_, readsItems_map fun a ha => ?_, hconfidence, trivial,
    readsItems_map fun m _ => ⟨by simp, trivial, trivial, trivial⟩, trivial, trivial⟩
  · exact ⟨by simp, trivial, trivial, trivial, hcitations c hc, trivial⟩
  · exact ⟨by simp, trivial, trivial, ⟨a.output.nodup, (hactions a ha).1⟩, reads_str _, reads_str _,
      ⟨a.policyApplied.nodup, (hactions a ha).2⟩, trivial⟩

/-- A snapshot is read back if its result is. -/
theorem TaskStatusResponse.reads_modelDump {x : TaskStatusResponse}
    (h : ∀ r, x.result = some r → F.Reads r.modelDump) : F.Reads x.modelDump :=
  ⟨by simp, trivial, trivial, reads_str _, reads_ofOption h, reads_str _, trivial⟩

theorem reads_sample : pydanticFormat.Reads UnifiedResponse.sample.modelDump := by
  have hzero : Json.number? ['0', '.', '0'] = some (.float (binary64.round ((0 + 0 / 10 ^ 1) * 10 ^ (0 : Int)))) := rfl
  rw [show ((0 : Rat) + 0 / 10 ^ 1) * 10 ^ (0 : Int) = 0 by norm_num, BinaryFormat.round_zero] at hzero
  exact UnifiedResponse.reads_modelDump ⟨hzero, List.all_eq_true.1 rfl⟩ (fun _ hc => nomatch hc) fun _ ha => nomatch ha

/-- `events_faithful` for the stream of a task that completes. -/
theorem events_faithful_ended :
    ∃ s stream, (node .strict).run (.init .memory) (.start noFault [] :: streamEvents) = some s ∧
      s.streams.get? 0 = some stream ∧
      (received (eventStream pydanticFormat (stream.delivered.map fun x => (x, false))).flatten).map decodeEvent =
        stream.delivered.map (fun x => some x.modelDump) := by
  have hrun : ((node .strict).run (.init .memory) (.start noFault [] :: streamEvents)).map (fun s =>
      ((s.streams.get? 0).map (fun stream => (stream.taskId, stream.delivered.map (·.result))),
        (s.tasks.get? "t").isSome)) =
      some (some ("t", [none, none, none, some .sample]), true) := by
    decide
  obtain ⟨s, hs, hq⟩ := Option.map_eq_some_iff.1 hrun
  simp only [Prod.mk.injEq] at hq
  obtain ⟨stream, hstream, hresults⟩ := Option.map_eq_some_iff.1 hq.1
  obtain ⟨task, htask⟩ := Option.isSome_iff_exists.1 hq.2
  simp only [Prod.mk.injEq] at hresults
  have hreads : ∀ x ∈ stream.delivered, pydanticFormat.Reads x.modelDump := by
    refine fun x hx => TaskStatusResponse.reads_modelDump fun r hr => ?_
    have hmem : some r ∈ stream.delivered.map (·.result) := hr ▸ List.mem_map_of_mem hx
    rw [hresults.2] at hmem
    have hsample : r = .sample := by simpa using hmem
    exact hsample ▸ reads_sample
  exact ⟨s, stream, hs, hstream,
    (events_faithful pydanticFormat ⟨rfl, rfl, rfl, rfl⟩ hs (by decide) (by decide) htask hstream hresults.1 hreads).2.1⟩

end Ochestrate
