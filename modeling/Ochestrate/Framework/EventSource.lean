import Ochestrate.Framework.TextLines

/-!
# A client of server-sent events

A client reads a stream of events line by line: `event` names the next event,
`data` adds to its data, an empty line dispatches it. The fields `id` and `retry` are
not kept. A server writes each event as a frame of one line for its type and one for
its data. The client receives what was written (`received_frames`), and from a text
that is cut anywhere the first events of it (`received_cut`).
-/

namespace Ochestrate

structure SentEvent where
  type : List Char
  data : List Char
  deriving DecidableEq

/-- An event with a type, whose parts are lines. -/
structure SentEvent.Plain (event : SentEvent) : Prop where
  named : event.type ≠ []
  type : '\n' ∉ event.type ∧ '\r' ∉ event.type
  data : '\n' ∉ event.data ∧ '\r' ∉ event.data

namespace EventSource

/-- The event that the next empty line dispatches, and those dispatched. -/
structure Client where
  type : List Char := []
  data : List Char := []
  events : List SentEvent := []

def message : List Char := ['m', 'e', 's', 's', 'a', 'g', 'e']

/-- A blank in front of a value is no part of it. -/
def fieldValue : List Char → List Char
  | ' ' :: value => value
  | value => value

/-- An event without data is none. -/
def dispatch (client : Client) : Client :=
  if client.data = [] then { client with type := [] }
  else { events := client.events ++ [⟨if client.type = [] then message else client.type, client.data.dropLast⟩] }

def readLine (client : Client) (line : List Char) : Client :=
  if line = [] then dispatch client
  else
    let (field, rest) := line.span (· ≠ ':')
    if field = ['e', 'v', 'e', 'n', 't'] then { client with type := fieldValue rest.tail }
    else if field = ['d', 'a', 't', 'a'] then { client with data := client.data ++ fieldValue rest.tail ++ ['\n'] }
    else client

/-- `\r\n` and `\r` end lines as well. -/
def normalizeNewlines : List Char → List Char
  | [] => []
  | '\r' :: '\n' :: text => '\n' :: normalizeNewlines text
  | '\r' :: text => '\n' :: normalizeNewlines text
  | c :: text => c :: normalizeNewlines text

/-- The events that a client has received once it has read a text. -/
def received (text : List Char) : List SentEvent :=
  ((TextLines.of (normalizeNewlines text)).ended.foldl readLine {}).events

theorem normalizeNewlines_of_notMem {text : List Char} (h : '\r' ∉ text) : normalizeNewlines text = text := by
  induction text with
  | nil => rfl
  | cons c text ih =>
    rw [List.mem_cons, not_or] at h
    rw [normalizeNewlines, ih h.2]
    · exact fun _ hc _ => h.1 hc.symm
    · exact fun hc => h.1 hc.symm

/-! ## Frames -/

def typeLine (event : SentEvent) : List Char := ['e', 'v', 'e', 'n', 't', ':', ' '] ++ event.type

def dataLine (event : SentEvent) : List Char := ['d', 'a', 't', 'a', ':', ' '] ++ event.data

/-- The type, the data and an empty line. -/
def frame (event : SentEvent) : List Char := typeLine event ++ '\n' :: dataLine event ++ ['\n', '\n']

variable {event : SentEvent}

theorem readLine_typeLine (client : Client) : readLine client (typeLine event) = { client with type := event.type } := rfl

theorem readLine_dataLine (client : Client) :
    readLine client (dataLine event) = { client with data := client.data ++ event.data ++ ['\n'] } := rfl

/-- The lines of a frame make one event. -/
theorem foldl_frame (h : event.Plain) (events : List SentEvent) :
    [typeLine event, dataLine event, []].foldl readLine { events } = { events := events ++ [event] } := by
  have hdata : event.data ++ ['\n'] ≠ [] := by simp
  rw [List.foldl_cons, List.foldl_cons, readLine_typeLine, readLine_dataLine, List.nil_append, List.foldl_cons, readLine,
    if_pos rfl, dispatch, if_neg hdata, if_neg h.named, List.dropLast_concat]
  rfl

/-- Without the empty line there is no event. -/
theorem foldl_frame_cut {lines : List (List Char)} (h : lines <+: [typeLine event, dataLine event])
    (events : List SentEvent) : (lines.foldl readLine { events }).events = events := by
  rw [List.prefix_cons_iff] at h
  obtain rfl | ⟨rest, rfl, h⟩ := h
  · rfl
  · rw [List.prefix_cons_iff] at h
    obtain rfl | ⟨rest, rfl, h⟩ := h
    · rfl
    · rw [List.prefix_nil.1 h]
      rfl

theorem newline_notMem_lines (h : event.Plain) : '\n' ∉ typeLine event ∧ '\n' ∉ dataLine event := by
  simp [typeLine, dataLine, h.type.1, h.data.1]

theorem carriageReturn_notMem_frame (h : event.Plain) : '\r' ∉ frame event := by
  simp [frame, typeLine, dataLine, h.type.2, h.data.2]

/-- A frame but for its last character. -/
theorem of_dropLast_frame (h : event.Plain) :
    TextLines.of (frame event).dropLast = ⟨[typeLine event, dataLine event], []⟩ := by
  have hshape : (frame event).dropLast = typeLine event ++ ['\n'] ++ (dataLine event ++ ['\n']) := by
    have hlast : frame event = typeLine event ++ ['\n'] ++ (dataLine event ++ ['\n']) ++ ['\n'] := by simp [frame]
    rw [hlast, List.dropLast_concat]
  have hfirst := TextLines.of_append_line (newline_notMem_lines h).1 []
  rw [List.nil_append] at hfirst
  rw [hshape, TextLines.of_append_line (newline_notMem_lines h).2, hfirst]
  rfl

theorem frame_eq (event : SentEvent) : frame event = (frame event).dropLast ++ ['\n'] := by
  have hlast : frame event = typeLine event ++ '\n' :: dataLine event ++ ['\n'] ++ ['\n'] := by simp [frame]
  rw [hlast, List.dropLast_concat]

theorem of_frame (h : event.Plain) : TextLines.of (frame event) = ⟨[typeLine event, dataLine event, []], []⟩ := by
  have hline := @TextLines.of_append_line [] List.not_mem_nil (frame event).dropLast
  rw [List.nil_append, ← frame_eq, of_dropLast_frame h] at hline
  exact hline

theorem foldl_frames {events : List SentEvent} (h : ∀ event ∈ events, event.Plain) (sofar : List SentEvent) :
    (TextLines.of (events.flatMap frame)).ended.foldl readLine { events := sofar } = { events := sofar ++ events } := by
  induction events generalizing sofar with
  | nil => rw [List.append_nil]; rfl
  | cons event events ih =>
    rw [List.forall_mem_cons] at h
    have hrest : (TextLines.of (frame event)).rest = [] := by rw [of_frame h.1]
    rw [List.flatMap_cons, TextLines.ended_append_of_rest hrest, List.foldl_append, of_frame h.1, foldl_frame h.1, ih h.2,
      List.append_assoc, List.singleton_append]

theorem foldl_cut {events : List SentEvent} (h : ∀ event ∈ events, event.Plain) {body : List Char}
    (hbody : body <+: events.flatMap frame) (sofar : List SentEvent) :
    ((TextLines.of body).ended.foldl readLine { events := sofar }).events <+: sofar ++ events := by
  induction events generalizing body sofar with
  | nil =>
    rw [List.flatMap_nil, List.prefix_nil] at hbody
    rw [hbody]
    exact List.prefix_append ..
  | cons event events ih =>
    rw [List.forall_mem_cons] at h
    rw [List.flatMap_cons] at hbody
    rcases List.prefix_or_prefix_of_prefix hbody (List.prefix_append (frame event) _) with hpart | ⟨body', rfl⟩
    · rw [frame_eq, List.prefix_concat_iff, ← frame_eq] at hpart
      rcases hpart with rfl | hcut
      · rw [of_frame h.1, foldl_frame h.1]
        exact (List.prefix_append_right_inj _).2 (List.cons_prefix_cons.2 ⟨rfl, List.nil_prefix⟩)
      · obtain ⟨rest, hrest⟩ := hcut
        have hlines := TextLines.ended_append body rest
        rw [hrest, of_dropLast_frame h.1] at hlines
        rw [foldl_frame_cut hlines]
        exact List.prefix_append ..
    · rw [List.prefix_append_right_inj] at hbody
      have hrest : (TextLines.of (frame event)).rest = [] := by rw [of_frame h.1]
      rw [TextLines.ended_append_of_rest hrest, List.foldl_append, of_frame h.1, foldl_frame h.1]
      have hprefix := ih h.2 hbody (sofar ++ [event])
      rwa [List.append_assoc] at hprefix

theorem carriageReturn_notMem_flatMap {events : List SentEvent} (h : ∀ event ∈ events, event.Plain) :
    '\r' ∉ events.flatMap frame := by
  intro hmem
  obtain ⟨event, hevent, hmem⟩ := List.mem_flatMap.1 hmem
  exact carriageReturn_notMem_frame (h event hevent) hmem

/-- Of a text that is cut anywhere the client receives the first events. -/
theorem received_cut {events : List SentEvent} (h : ∀ event ∈ events, event.Plain) {body : List Char}
    (hbody : body <+: events.flatMap frame) : received body <+: events := by
  have hplain : '\r' ∉ body := fun hmem => carriageReturn_notMem_flatMap h (hbody.subset hmem)
  rw [received, normalizeNewlines_of_notMem hplain]
  exact foldl_cut h hbody []

/-- The client receives what was written. -/
theorem received_frames {events : List SentEvent} (h : ∀ event ∈ events, event.Plain) :
    received (events.flatMap frame) = events := by
  rw [received, normalizeNewlines_of_notMem (carriageReturn_notMem_flatMap h), foldl_frames h []]
  rfl

end EventSource

end Ochestrate
