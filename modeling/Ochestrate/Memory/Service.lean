import Mathlib.Data.String.Basic
import Ochestrate.Framework.Strings
import Ochestrate.Framework.Window
import Ochestrate.Schemas.Api

/-!
# Short-term memory

`app/memory/service.py` and `app/memory/short_term.py`: the store keeps the last
`max_turns` contents of each session, under a key that joins tenant, user and
session by colons. `sessionKey_inj` says that the key tells the sessions apart
if users and sessions have no colon, whatever the tenants are;
`readShort_run` is what a read returns after any calls.
-/

namespace Ochestrate

namespace ShortTermMemoryStore

variable {maxTurns : Nat}

/-- The store, with a deque for each session that was written. -/
abbrev State (maxTurns : Nat) := Windows String String maxTurns

def addTurn (store : State maxTurns) (sessionKey text : String) : State maxTurns :=
  Windows.record store sessionKey text

def window (store : State maxTurns) (sessionKey : String) : List String := Windows.window store sessionKey

end ShortTermMemoryStore

namespace MemoryService

open ShortTermMemoryStore

variable {shortTurns : Nat}

/-- The identity that a memory is kept under. -/
@[ext] structure Session where
  tenantId : String
  userId : String
  sessionId : String
  deriving DecidableEq

/-- Neither the user nor the session has a colon. -/
def Session.Plain (session : Session) : Prop := ':' ∉ session.userId.toList ∧ ':' ∉ session.sessionId.toList

instance (session : Session) : Decidable session.Plain := inferInstanceAs (Decidable (_ ∧ _))

/-- `_session_key` -/
def sessionKey (session : Session) : String := session.tenantId ++ ":" ++ session.userId ++ ":" ++ session.sessionId

def writeShort (store : State shortTurns) (session : Session) (content : String) : State shortTurns × MemoryUpdate :=
  (addTurn store (sessionKey session) content, { memoryType := .short, content })

def readShort (store : State shortTurns) (session : Session) : List String := window store (sessionKey session)

/-- The key is the session: the colons are found from its end. -/
theorem sessionKey_inj {session session' : Session} (h : session.Plain) (h' : session'.Plain)
    (hkey : sessionKey session = sessionKey session') : session = session' := by
  have hchars : session.sessionId.toList.reverse ++ ':' :: (session.userId.toList.reverse ++
        ':' :: session.tenantId.toList.reverse) =
      session'.sessionId.toList.reverse ++ ':' :: (session'.userId.toList.reverse ++
        ':' :: session'.tenantId.toList.reverse) := by
    have hreverse := congrArg (fun key => key.toList.reverse) hkey
    simpa [sessionKey] using hreverse
  obtain ⟨hsession, hrest⟩ := separated_inj (by simpa using h.2) (by simpa using h'.2) hchars
  obtain ⟨huser, htenant⟩ := separated_inj (by simpa using h.1) (by simpa using h'.1) hrest
  rw [List.reverse_inj, String.toList_inj] at hsession huser htenant
  exact Session.ext htenant huser hsession

/-! ## Calls -/

/-- The calls that reach the store. -/
inductive Call
  | writeShort (session : Session) (content : String)
  | readShort (session : Session)
  deriving DecidableEq

def Call.session : Call → Session
  | writeShort session _ => session
  | readShort session => session

/-- The store after a call, and what a read returns. -/
def step (store : State shortTurns) : Call → State shortTurns × List String
  | .writeShort session content => ((writeShort store session content).1, [])
  | .readShort session => (store, readShort store session)

/-- The store after calls in turn. -/
def run (calls : List Call) : State shortTurns := calls.foldl (fun store call => (step store call).1) Dict.empty

/-- The contents written for a session, the oldest first. -/
def contents (session : Session) (calls : List Call) : List String :=
  calls.filterMap fun
    | .writeShort session' content => if session' = session then some content else none
    | .readShort _ => none

/-- The records that the calls make. -/
def records (calls : List Call) : List (String × String) :=
  calls.filterMap fun
    | .writeShort session content => some (sessionKey session, content)
    | .readShort _ => none

theorem records_append (calls calls' : List Call) : records (calls ++ calls') = records calls ++ records calls' :=
  List.filterMap_append ..

theorem run_eq_ofRecords (calls : List Call) : (run calls : State shortTurns) = Windows.ofRecords (records calls) := by
  induction calls using List.reverseRecOn with
  | nil => rfl
  | append_singleton calls call ih =>
    rw [run, List.foldl_concat, ← run, ih, records_append]
    cases call with
    | writeShort session content => exact (Windows.ofRecords_concat (records calls) (sessionKey session, content)).symm
    | readShort session => exact congrArg Windows.ofRecords (List.append_nil _).symm

/-- What was recorded under a session's key was written for the session. -/
theorem historyOf_records {session : Session} (h : session.Plain) {calls : List Call}
    (hcalls : ∀ call ∈ calls, call.session.Plain) :
    Windows.historyOf (sessionKey session) (records calls) = contents session calls := by
  rw [Windows.historyOf, records, contents, List.filterMap_filterMap]
  refine List.filterMap_congr fun call hcall => ?_
  cases call with
  | readShort session' => rfl
  | writeShort session' content =>
    have hsession : sessionKey session' = sessionKey session ↔ session' = session :=
      ⟨sessionKey_inj (hcalls _ hcall) h, congrArg sessionKey⟩
    exact if_congr hsession rfl rfl

/-- A read returns the last contents that were written for the session. -/
theorem readShort_run (maxTurns : Nat) (calls : List Call) (session : Session)
    (hcalls : ∀ call ∈ calls, call.session.Plain) (h : session.Plain) :
    readShort (run calls : State maxTurns) session = (contents session calls).rtake maxTurns := by
  rw [readShort, window, run_eq_ofRecords, Windows.window_ofRecords, historyOf_records h hcalls]

/-- Two turns are kept of three, for a tenant with a colon. -/
theorem readShort_run_turns :
    readShort (run [.writeShort ⟨"t1:u1", "u1", "s1"⟩ "turn1", .writeShort ⟨"t1", "u1", "s1"⟩ "other",
        .writeShort ⟨"t1:u1", "u1", "s1"⟩ "turn2", .readShort ⟨"t1:u1", "u1", "s1"⟩,
        .writeShort ⟨"t1:u1", "u1", "s1"⟩ "turn3"] : State 2) ⟨"t1:u1", "u1", "s1"⟩ = ["turn2", "turn3"] :=
  readShort_run 2 _ _ (by decide) (by decide)

end MemoryService

end Ochestrate
