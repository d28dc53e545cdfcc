import Ochestrate.Auth.Schemas
import Ochestrate.Framework.TextLines
import Ochestrate.Framework.Transcript
import Ochestrate.Schemas.JsonText
import Ochestrate.Storage.TaskRepo
import Ochestrate.Tools.Hub

/-!
# The audit log as a file

`AuditLogger.record` of `app/observability/audit.py`, down to the characters that
reach the file, with `append_audit_event` of
`app/storage/repositories/task_repo.py` and the callback of
`app/api/v1/webhook.py`. Writing a line may fail after any number of characters,
and the database may fail in any way.

`audit_log_read`: after any sequence of calls each line that reached the file whole
stands in it in order, and reads back as its event unless a torn line is in front of
it; a torn line spoils at most one event. The table has rows of such events only, in
the same order. A call returns exactly if its line was written, whatever the
database does.

`ShowsLog.record`: whenever the hub records an event, some call of this logger
answers the hub the same and keeps the file in step with the hub's own log.
-/

namespace Ochestrate

/-! ## The logger -/

/-- How writing a line goes: whole, or some characters of it and an exception. -/
inductive LineWrite
  | written
  | failed (chars : Nat) (exc : Exc)

/-- A call of `record` and what it draws from outside. -/
structure AuditCall where
  eventType : String
  payload : Dict String Json
  eventId : String
  timestamp : String
  write : LineWrite
  commit : Fault Exc

/-- A row of `audit_events`. -/
structure AuditEventRow where
  eventId : String
  eventType : String
  traceId : Option Json
  tenantId : Option Json
  payloadJson : Dict String Json

/-- The file of the log and the table. -/
structure AuditStore where
  file : List Char := []
  rows : List AuditEventRow := []

namespace AuditCall

variable (F : JsonFormat) (call : AuditCall)

/-- `event` -/
def event : Json :=
  .obj [("event_id", .str call.eventId), ("event_type", .str call.eventType), ("timestamp", .str call.timestamp),
    ("payload", .ofDict call.payload)]

/-- `json.dumps(event, ensure_ascii=True) + "\n"` -/
def line : List Char := F.write call.event ++ ['\n']

/-- The characters that reach the file. -/
def reached : List Char :=
  match call.write with
  | .written => call.line F
  | .failed chars _ => (call.line F).take chars

def row : AuditEventRow where
  eventId := call.eventId
  eventType := call.eventType
  traceId := call.payload.get? "trace_id"
  tenantId := call.payload.get? "tenant_id"
  payloadJson := call.payload

/-- `f.write(...)` -/
def writeLine : EStateM Exc AuditStore PUnit := fun store =>
  let store := { store with file := store.file ++ call.reached F }
  match call.write with
  | .written => .ok ⟨⟩ store
  | .failed _ exc => .error exc store

/-- `TaskRepository.append_audit_event` -/
def appendAuditEvent : RepoMode → EStateM Exc AuditStore PUnit
  | .memory => pure ⟨⟩
  | .database => do
    if call.eventId ∈ (← get).rows.map (·.eventId) then throw ⟨.integrityError, "UNIQUE constraint failed"⟩
    else faulty call.commit fun store => { store with rows := store.rows ++ [call.row] }

/-- `AuditLogger.record` -/
def record (sink : Option RepoMode) : EStateM Exc AuditStore String := do
  call.writeLine F
  match sink with
  | none => pure ⟨⟩
  | some mode => tryCatch (call.appendAuditEvent mode) fun _ => pure ⟨⟩
  return call.eventId

/-- The call that `tool_callback` makes. -/
def toolCallback (auth : AuthContext) (payload : Dict String Json) (eventId timestamp : String) (write : LineWrite)
    (commit : Fault Exc) : AuditCall where
  eventType := "webhook.tool_callback"
  payload := (((Dict.empty.set "tenant_id" (.str auth.tenantId)).set "user_id" (.str auth.userId)).set "role"
    (.str auth.role)).set "payload" (.ofDict payload)
  eventId
  timestamp
  write
  commit

/-- What the caller gets. -/
def answer : Except Exc String :=
  match call.write with
  | .written => .ok call.eventId
  | .failed _ exc => .error exc

/-- The line reached the file whole. -/
def Complete : Prop := call.reached F = call.line F

instance : DecidablePred (Complete F) := fun _ => inferInstanceAs (Decidable (_ = _))

/-- Some of the line reached the file, but not its end. -/
def Torn : Prop := call.reached F ≠ [] ∧ ¬ call.Complete F

instance : DecidablePred (Torn F) := fun _ => inferInstanceAs (Decidable (_ ∧ _))

end AuditCall

/-- The log under a sequence of calls, answered one after the other. -/
def auditLog (F : JsonFormat) (sink : Option RepoMode) : Responder AuditStore AuditCall (Except Exc String) where
  respond store call := outcome (call.record F sink store)

/-! ## One call -/

section Call

variable {F : JsonFormat} {call : AuditCall} {sink : Option RepoMode}

theorem reads_event (h : F.ReadsFields call.payload.entries) : F.Reads call.event :=
  ⟨by simp, trivial, trivial, trivial, ⟨call.payload.nodup, h⟩, trivial⟩

/-- The payload of a callback is read back if the one that the client sent is. -/
theorem reads_toolCallback {auth : AuthContext} {payload : Dict String Json} {eventId timestamp : String}
    {write : LineWrite} {commit : Fault Exc} (h : F.ReadsFields payload.entries) :
    F.ReadsFields (AuditCall.toolCallback auth payload eventId timestamp write commit).payload.entries :=
  ⟨trivial, trivial, trivial, ⟨payload.nodup, h⟩, trivial⟩

theorem AuditCall.reached_of_not_complete (h : ¬ call.Complete F) :
    ∃ n, call.reached F = (F.write call.event).take n := by
  unfold AuditCall.Complete AuditCall.reached at *
  cases hwrite : call.write with
  | written => simp [hwrite] at h
  | failed n exc =>
    simp only [hwrite] at h ⊢
    have hlt : n ≤ (F.write call.event).length := by
      by_contra hlt
      refine h (List.take_of_length_le ?_)
      rw [AuditCall.line, List.length_append, List.length_singleton]
      omega
    exact ⟨n, by rw [AuditCall.line, List.take_append_of_le_length hlt]⟩

/-- The table stays as it is or gets the row of a new event. -/
def Adds (call : AuditCall) (store store' : AuditStore) : Prop :=
  store'.file = store.file ∧ (store'.rows = store.rows ∨
    call.eventId ∉ store.rows.map (·.eventId) ∧ store'.rows = store.rows ++ [call.row])

theorem appendAuditEvent_adds (call : AuditCall) (mode : RepoMode) (store : AuditStore) :
    Adds call store (finalState (call.appendAuditEvent mode store)) := by
  cases mode with
  | memory => exact ⟨rfl, .inl rfl⟩
  | database =>
    rw [AuditCall.appendAuditEvent, get_bind]
    by_cases hid : call.eventId ∈ store.rows.map (·.eventId)
    · rw [if_pos hid]
      exact ⟨rfl, .inl rfl⟩
    · rw [if_neg hid, finalState_faulty]
      split
      · exact ⟨rfl, .inr ⟨hid, rfl⟩⟩
      · exact ⟨rfl, .inl rfl⟩

/-- The call raises if its line was not written, before the database is asked. -/
theorem record_failed {chars : Nat} {exc : Exc} (h : call.write = .failed chars exc) (store : AuditStore) :
    call.record F sink store = .error exc { store with file := store.file ++ call.reached F } := by
  refine bind_error ?_ _
  simp only [AuditCall.writeLine, h]

/-- The call returns if its line was written, whatever the database does. -/
theorem record_written (F : JsonFormat) (sink : Option RepoMode) (h : call.write = .written) (store : AuditStore) :
    ∃ store', call.record F sink store = .ok call.eventId store' ∧
      Adds call { store with file := store.file ++ call.reached F } store' := by
  have hwrite : call.writeLine F store = .ok ⟨⟩ { store with file := store.file ++ call.reached F } := by
    simp only [AuditCall.writeLine, h]
  rw [AuditCall.record, bind_ok hwrite]
  cases sink with
  | none => exact ⟨_, rfl, rfl, .inl rfl⟩
  | some mode =>
    have hadds := appendAuditEvent_adds call mode { store with file := store.file ++ call.reached F }
    refine ⟨_, bind_ok (a := ⟨⟩) ?_ _, hadds⟩
    rw [tryCatch_eq]
    cases call.appendAuditEvent mode { store with file := store.file ++ call.reached F } <;> rfl

/-- What a call answers and leaves. -/
theorem respond_cases (F : JsonFormat) (sink : Option RepoMode) (call : AuditCall) (store : AuditStore) :
    ((auditLog F sink).respond store call).1 = call.answer ∧
      ((auditLog F sink).respond store call).2.file = store.file ++ call.reached F ∧
      (((auditLog F sink).respond store call).2.rows = store.rows ∨ call.Complete F ∧
        call.eventId ∉ store.rows.map (·.eventId) ∧
        ((auditLog F sink).respond store call).2.rows = store.rows ++ [call.row]) := by
  cases hwrite : call.write with
  | written =>
    obtain ⟨store', hrecord, hfile, hrows⟩ := record_written F sink hwrite store
    have hcomplete : call.Complete F := by simp only [AuditCall.Complete, AuditCall.reached, hwrite]
    simp only [auditLog, hrecord, outcome, AuditCall.answer, hwrite, true_and]
    exact ⟨hfile, hrows.imp id fun hrows => ⟨hcomplete, hrows⟩⟩
  | failed chars exc =>
    simp only [auditLog, record_failed hwrite, outcome, AuditCall.answer, hwrite, true_and]
    exact .inl trivial

end Call

/-! ## All calls -/

variable {F : JsonFormat} {sink : Option RepoMode}

/-- The line does not read back as the call's event. -/
def Spoiled (line : List Char) (call : AuditCall) : Prop := Json.loads line ≠ some call.event

instance (line : List Char) : DecidablePred (Spoiled line) := fun _ => inferInstanceAs (Decidable (_ ≠ _))

/-- The calls whose line is in the file. -/
def completedCalls (F : JsonFormat) (calls : List AuditCall) : List AuditCall := calls.filter fun call => call.Complete F

/-- What file and table have of the calls so far. A torn line that stands at the end
has not spoiled one yet. -/
structure Shows (F : JsonFormat) (store : AuditStore) (calls : List AuditCall) : Prop where
  length : (TextLines.of store.file).ended.length = (completedCalls F calls).length
  spoiled : ((TextLines.of store.file).ended.zip (completedCalls F calls)).countP (fun entry => Spoiled entry.1 entry.2) +
    (if (TextLines.of store.file).rest = [] then 0 else 1) ≤ calls.countP (·.Torn F)
  rows : store.rows.Sublist ((completedCalls F calls).map (·.row))
  ids : (store.rows.map (·.eventId)).Nodup

theorem completedCalls_concat {call : AuditCall} (h : call.Complete F) (calls : List AuditCall) :
    completedCalls F (calls ++ [call]) = completedCalls F calls ++ [call] := by
  simp [completedCalls, h]

theorem completedCalls_concat_part {call : AuditCall} (h : ¬ call.Complete F) (calls : List AuditCall) :
    completedCalls F (calls ++ [call]) = completedCalls F calls := by
  simp [completedCalls, h]

/-- A whole line. It is spoiled at most if a torn line stood in front of it. -/
theorem Shows.line {store store' : AuditStore} {calls : List AuditCall} {call : AuditCall} (h : Shows F store calls)
    (hcomplete : call.Complete F) (hreads : F.ReadsFields call.payload.entries)
    (hfile : store'.file = store.file ++ call.reached F) (hrows : store'.rows = store.rows ∨
      call.eventId ∉ store.rows.map (·.eventId) ∧ store'.rows = store.rows ++ [call.row]) :
    Shows F store' (calls ++ [call]) := by
  have hlines := TextLines.of_append_line (JsonFormat.newline_notMem_write (reads_event hreads)) store.file
  rw [show F.write call.event ++ ['\n'] = call.reached F from hcomplete.symm, ← hfile] at hlines
  refine ⟨?_, ?_, ?_, ?_⟩
  · rw [hlines, completedCalls_concat hcomplete, List.length_append, List.length_append, h.length]
    rfl
  · have hread : (TextLines.of store.file).rest = [] →
        ¬ Spoiled ((TextLines.of store.file).rest ++ F.write call.event) call := by
      intro hrest
      rw [hrest, List.nil_append, Spoiled, JsonFormat.loads_write (reads_event hreads)]
      exact not_not_intro rfl
    have hspoiled := h.spoiled
    rw [hlines, completedCalls_concat hcomplete, List.zip_append h.length, List.countP_append, List.countP_append]
    by_cases hrest : (TextLines.of store.file).rest = []
    · rw [if_pos hrest] at hspoiled
      have hnone : [((TextLines.of store.file).rest ++ F.write call.event, call)].countP
          (fun entry => Spoiled entry.1 entry.2) = 0 := by
        rw [List.countP_singleton, if_neg]
        simpa using hread hrest
      simp only [List.zip_cons_cons, List.zip_nil_left, hnone, reduceIte]
      omega
    · rw [if_neg hrest] at hspoiled
      have hone := List.countP_le_length (p := fun entry => decide (Spoiled entry.1 entry.2))
        (l := [((TextLines.of store.file).rest ++ F.write call.event, call)])
      simp only [List.zip_cons_cons, List.zip_nil_left, reduceIte, List.length_singleton] at hone ⊢
      omega
  · rw [completedCalls_concat hcomplete, List.map_append]
    rcases hrows with hrows | ⟨-, hrows⟩
    · exact hrows ▸ h.rows.trans (List.sublist_append_left ..)
    · exact hrows ▸ h.rows.append (.refl _)
  · rcases hrows with hrows | ⟨hid, hrows⟩
    · exact hrows ▸ h.ids
    · rw [hrows, List.map_append, List.map_singleton]
      refine List.nodup_append.2 ⟨h.ids, List.nodup_singleton _, fun id hmem id' hmem' heq => ?_⟩
      rw [heq, List.mem_singleton.1 hmem'] at hmem
      exact hid hmem

/-- A part of a line, or none of it. -/
theorem Shows.part {store store' : AuditStore} {calls : List AuditCall} {call : AuditCall} (h : Shows F store calls)
    (hpart : ¬ call.Complete F) (hreads : F.ReadsFields call.payload.entries)
    (hfile : store'.file = store.file ++ call.reached F) (hrows : store'.rows = store.rows) :
    Shows F store' (calls ++ [call]) := by
  obtain ⟨n, hreached⟩ := AuditCall.reached_of_not_complete hpart
  have hline := JsonFormat.newline_notMem_write (reads_event hreads)
  have hpiece : '\n' ∉ call.reached F := fun hmem => hline (List.mem_of_mem_take (hreached ▸ hmem))
  have hlines := TextLines.of_append hpiece store.file
  rw [← hfile] at hlines
  refine ⟨?_, ?_, ?_, hrows ▸ h.ids⟩
  · rw [hlines, completedCalls_concat_part hpart]
    exact h.length
  · have hspoiled := h.spoiled
    rw [hlines, completedCalls_concat_part hpart, List.countP_append]
    by_cases hreached : call.reached F = []
    · rw [hreached, List.append_nil]
      exact hspoiled.trans (Nat.le_add_right _ _)
    · have htorn : [call].countP (·.Torn F) = 1 := by
        rw [List.countP_singleton, if_pos (decide_eq_true ⟨hreached, hpart⟩)]
      have hflag : (if (TextLines.of store.file).rest ++ call.reached F = [] then 0 else 1) ≤ 1 := by split <;> decide
      rw [htorn]
      dsimp only at hspoiled ⊢
      omega
  · rw [hrows, completedCalls_concat_part hpart]
    exact h.rows

/-- Each call keeps what file and table show. -/
theorem Shows.step {store : AuditStore} {calls : List AuditCall} {call : AuditCall} (h : Shows F store calls)
    (hreads : F.ReadsFields call.payload.entries) :
    Shows F ((auditLog F sink).respond store call).2 (calls ++ [call]) := by
  obtain ⟨-, hfile, hrows⟩ := respond_cases F sink call store
  by_cases hcomplete : call.Complete F
  · exact h.line hcomplete hreads hfile (hrows.imp id fun hrows => hrows.2)
  · exact h.part hcomplete hreads hfile (hrows.resolve_right fun hrows => hcomplete hrows.1)

theorem transcript_answers (store : AuditStore) (calls : List AuditCall) :
    (auditLog F sink).transcript store calls = calls.map fun call => (call, call.answer) := by
  induction calls generalizing store with
  | nil => rfl
  | cons call calls ih => rw [Responder.transcript, ih, (respond_cases F sink _ store).1, List.map_cons]

/-- Over any sequence of calls: a call is answered with the id of its event exactly
if its line was written. The whole lines stand in the file in order, and of these no
more are spoiled than lines were torn. The rows of the table are of the same events
in the same order, each once. -/
theorem audit_log_read (F : JsonFormat) (sink : Option RepoMode) (calls : List AuditCall)
    (hreads : ∀ call ∈ calls, F.ReadsFields call.payload.entries) :
    let store := (auditLog F sink).after {} calls
    let lines := (TextLines.of store.file).ended
    (auditLog F sink).transcript {} calls = calls.map (fun call => (call, call.answer)) ∧
      lines.length = (completedCalls F calls).length ∧
      (lines.zip (completedCalls F calls)).countP (fun entry => Spoiled entry.1 entry.2) ≤ calls.countP (·.Torn F) ∧
      store.rows.Sublist ((completedCalls F calls).map (·.row)) ∧ (store.rows.map (·.eventId)).Nodup := by
  intro store lines
  have hstep : ∀ {store : AuditStore} {history : List (AuditCall × Except Exc String)} {call : AuditCall},
      Shows F store (history.map Prod.fst) → F.ReadsFields call.payload.entries →
      Shows F ((auditLog F sink).respond store call).2
        ((history ++ [(call, ((auditLog F sink).respond store call).1)]).map Prod.fst) := by
    intro store history call h hcall
    rw [List.map_append]
    exact h.step hcall
  have hinit : Shows F {} (List.map Prod.fst ([] : List (AuditCall × Except Exc String))) :=
    ⟨rfl, le_rfl, .slnil, List.nodup_nil⟩
  have hshows := (auditLog F sink).transcript_inv (I := fun store history => Shows F store (history.map Prod.fst))
    hinit hstep hreads
  rw [Responder.map_fst_transcript] at hshows
  exact ⟨transcript_answers _ _, hshows.length, le_trans (Nat.le_add_right _ _) hshows.spoiled, hshows.rows, hshows.ids⟩

/-- The format of `json.dumps` with its defaults; one float is enough here. -/
def pythonFormat : JsonFormat where
  ascii := true
  spaced := true
  floatText _ := ['0', '.', '5']

def callbackAuth : AuthContext where
  tenantId := "acme"
  userId := "u1"
  role := "employee"
  sessionId := "s1"
  tokenExp := 0

/-- Two callbacks, the first with a torn line: the file has one line. -/
theorem callbacks_read :
    let calls := [AuditCall.toolCallback callbackAuth Dict.empty "e1" "t1" (.failed 5 ⟨.osError, "full"⟩) .none,
      AuditCall.toolCallback callbackAuth Dict.empty "e2" "t2" .written (.before ⟨.other, "down"⟩)]
    (TextLines.of ((auditLog pythonFormat (some .database)).after {} calls).file).ended.length =
      (completedCalls pythonFormat calls).length := by
  intro calls
  have hreads : ∀ call ∈ calls, pythonFormat.ReadsFields call.payload.entries :=
    List.forall_mem_cons.2 ⟨reads_toolCallback trivial, List.forall_mem_cons.2
      ⟨reads_toolCallback trivial, fun _ hcall => nomatch hcall⟩⟩
  exact (audit_log_read pythonFormat (some .database) calls hreads).2.1

/-! ## The log of the hub -/

/-- The file has the events of a log, line by line; `payloadOf` are the dictionaries
of the payloads. -/
structure ShowsLog (F : JsonFormat) (payloadOf : AuditPayload → Dict String Json) (store : AuditStore)
    (log : List (AuditEvent AuditPayload)) : Prop where
  rest : (TextLines.of store.file).rest = []
  lines : List.Forall₂ (fun line event => ∃ call : AuditCall, call.eventId = event.eventId ∧
    call.eventType = event.eventType ∧ call.payload = payloadOf event.payload ∧ Json.loads line = some call.event)
    (TextLines.of store.file).ended log

variable {payloadOf : AuditPayload → Dict String Json} {store : AuditStore} {log : List (AuditEvent AuditPayload)}
  {call : AuditCall}

theorem ShowsLog.complete (h : ShowsLog F payloadOf store log) (hcomplete : call.Complete F) {payload : AuditPayload}
    (htype : call.eventType = payload.eventType) (hpayload : call.payload = payloadOf payload)
    (hreads : F.ReadsFields (payloadOf payload).entries) :
    ShowsLog F payloadOf ((auditLog F sink).respond store call).2
      (log ++ [⟨call.eventId, payload.eventType, payload⟩]) := by
  have hevent : F.Reads call.event := reads_event (hpayload ▸ hreads)
  have hlines := TextLines.of_append_line (JsonFormat.newline_notMem_write hevent) store.file
  rw [show F.write call.event ++ ['\n'] = call.reached F from hcomplete.symm,
    ← (respond_cases F sink call store).2.1, h.rest, List.nil_append] at hlines
  refine ⟨by rw [hlines], ?_⟩
  rw [hlines]
  exact List.rel_append h.lines (.cons ⟨call, rfl, htype, hpayload, JsonFormat.loads_write hevent⟩ .nil)

theorem ShowsLog.missing (h : ShowsLog F payloadOf store log) (hreached : call.reached F = []) :
    ShowsLog F payloadOf ((auditLog F sink).respond store call).2 log := by
  have hfile := (respond_cases F sink call store).2.1
  rw [hreached, List.append_nil] at hfile
  exact ⟨hfile ▸ h.rest, hfile ▸ h.lines⟩

/-- Whenever the hub records an event, a call of the logger answers alike and keeps
the file and the hub's log in step. -/
theorem ShowsLog.record {ω : Type} {hub : ToolHub ω} (h : ShowsLog F payloadOf store hub.audit.log)
    {payload : AuditPayload} (hreads : F.ReadsFields (payloadOf payload).entries) (timestamp : String) (commit : Fault Exc) :
    ∃ call : AuditCall, call.eventType = payload.eventType ∧ call.payload = payloadOf payload ∧
      ((auditLog F sink).respond store call).1 = (outcome (ToolHub.record payload hub)).1 ∧
      ShowsLog F payloadOf ((auditLog F sink).respond store call).2
        (finalState (ToolHub.record payload hub)).audit.log := by
  let made (eventId : String) (write : LineWrite) : AuditCall :=
    { eventType := payload.eventType, payload := payloadOf payload, eventId, timestamp, write, commit }
  obtain ⟨-, eventId, world, hok⟩ | ⟨exc, world, -, hbefore⟩ | ⟨exc, eventId, world, -, hafter⟩ :=
    ToolHub.record_cases payload hub
  · rw [hok]
    have hcomplete : (made eventId .written).Complete F := rfl
    exact ⟨made eventId .written, rfl, rfl, (respond_cases F sink _ store).1, h.complete hcomplete rfl rfl hreads⟩
  · rw [hbefore]
    exact ⟨made "" (.failed 0 exc), rfl, rfl, (respond_cases F sink _ store).1, h.missing rfl⟩
  · rw [hafter]
    let chars := ((made eventId .written).line F).length
    have hcomplete : (made eventId (.failed chars exc)).Complete F := List.take_length
    exact ⟨made eventId (.failed chars exc), rfl, rfl, (respond_cases F sink _ store).1, h.complete hcomplete rfl rfl hreads⟩

end Ochestrate
