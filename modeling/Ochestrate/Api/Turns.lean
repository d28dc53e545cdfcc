import Ochestrate.Api.Platform

/-!
# What answered runs leave behind

Over any sequence of requests to the container: every run is counted, whether it
is answered or not, and none is counted for a low confidence
(`runs_counted`). While the audit log can be written, each answered run, and no
other, has its event in the log, its turn in the short-term memory of its session
and its record in the long-term memory, all in the order of the answers
(`runs_remembered`), and a run is answered exactly if its overrides can be merged
and the skills load (`run_answered_iff`). The long-term memory is read from its
oldest end, so five valid memories hide those that come later (`readLong_stays`).
-/

namespace Ochestrate

open ToolHub

variable {υ : Type} {P : Platform}

/-- A run that was answered. -/
structure AnsweredRun where
  auth : AuthContext
  request : UnifiedRequest
  draws : Draws
  response : UnifiedResponse

namespace AnsweredRun

variable (run : AnsweredRun)

/-- The session of the caller. -/
def session : MemoryService.Session := ⟨run.auth.tenantId, run.auth.userId, run.auth.sessionId⟩

/-- The turn that is remembered. -/
def content : String := turn run.request.input run.response.answer

/-- The record of the run in the long-term memory. -/
def record (defaultTtlDays : Int) : MemoryRecord :=
  LongTermMemoryStore.newRecord { defaultTtlDays } run.draws.writeAt run.auth.tenantId run.auth.userId
    ("Preferred context from trace " ++ run.draws.traceId) (some ["auto-summary"]) none

/-- The payload is the run's event. -/
def Logs (payload : AuditPayload) : Prop :=
  ∃ skillsLoaded, payload = .completed run.response.traceId run.auth.tenantId run.request.taskType
    run.response.confidence run.response.citations.length run.response.actions.length skillsLoaded

end AnsweredRun

/-- A request to run the agent. -/
def PlatformCall.isRun (call : PlatformCall) : Bool :=
  match call.request with
  | .run _ _ => true
  | _ => false

/-- The requests of a run and their answers. -/
abbrev History := List (PlatformCall × Except HttpError PlatformAnswer)

namespace History

/-- The runs that were answered, in order. -/
def answeredRuns (history : History) : List AnsweredRun :=
  history.filterMap fun
    | (⟨.run auth request, draws⟩, .ok (.response response)) => some ⟨auth, request, draws, response⟩
    | _ => none

/-- The number of requests to run the agent. -/
def runs (history : History) : Nat := (history.map Prod.fst).countP (·.isRun)

/-- The turns answered under the key of a session, in order. -/
def turns (history : History) (session : MemoryService.Session) : List String :=
  (history.answeredRuns.filter fun run =>
    MemoryService.sessionKey run.session = MemoryService.sessionKey session).map (·.content)

theorem answeredRuns_concat (history : History) (entry : PlatformCall × Except HttpError PlatformAnswer) :
    answeredRuns (history ++ [entry]) = history.answeredRuns ++ answeredRuns [entry] :=
  List.filterMap_append ..

/-- What is recorded under the key of a session are its turns. -/
theorem historyOf_turns (history : History) (session : MemoryService.Session) :
    Windows.historyOf (MemoryService.sessionKey session)
        (history.answeredRuns.map fun run => (MemoryService.sessionKey run.session, run.content)) =
      history.turns session := by
  rw [Windows.historyOf, List.filterMap_map, turns, ← List.filterMap_eq_map, List.filterMap_filter]
  refine List.filterMap_congr fun run _ => ?_
  simp only [Function.comp_apply, decide_eq_true_eq]

theorem runs_concat (history : History) (entry : PlatformCall × Except HttpError PlatformAnswer) :
    runs (history ++ [entry]) = history.runs + runs [entry] := by
  rw [runs, List.map_append, List.countP_append]
  rfl

end History

/-- The container as it is built. -/
structure Built (hub : ToolHub (World P.shortTurns υ)) : Prop where
  wired : Wired hub
  short : hub.world.services.short = Dict.empty
  long : hub.world.services.long.records = []
  metrics : hub.metrics = {}
  log : hub.audit.log = []

theorem emptyHub_built : Built emptyHub := ⟨⟨rfl, rfl, fun _ h => nomatch h⟩, rfl, rfl, rfl, rfl⟩

theorem mailingHub_built : Built mailingHub := ⟨mailingHub_wired, rfl, rfl, rfl, rfl⟩

/-! ## Counters -/

/-- The counters after the requests. -/
structure RunsCounted (hub : ToolHub (World P.shortTurns υ)) (history : History) : Prop where
  wired : Wired hub
  total : hub.metrics.count "request.total" = history.runs
  low : hub.metrics.count "response.low_confidence" = 0
  confident : ∀ run ∈ history.answeredRuns, lowConfidence ≤ run.response.confidence

variable {hub hub' : ToolHub (World P.shortTurns υ)} {history : History} {draws : Draws}

/-- Requests that are no runs. -/
theorem RunsCounted.other (h : RunsCounted hub history) {entry : PlatformCall × Except HttpError PlatformAnswer}
    (hruns : History.runs [entry] = 0) (hanswered : History.answeredRuns [entry] = []) (services : Services P.shortTurns) :
    RunsCounted ((arrived hub draws).withServices services) (history ++ [entry]) where
  wired := h.wired.of_eq rfl rfl rfl
  total := by
    rw [History.runs_concat, hruns]
    exact h.total
  low := h.low
  confident := by
    rw [History.answeredRuns_concat, hanswered, List.append_nil]
    exact h.confident

theorem Responds.lowConfidence_le {disk : Disk Json} {request : UnifiedRequest} {skills : List SkillContextItem}
    {response : UnifiedResponse} (h : Responds P hub disk request skills response) :
    lowConfidence ≤ response.confidence := by
  have hreviewed := congrArg Prod.snd h.reviewed
  rw [show response.confidence = _ from hreviewed]
  exact ReviewerAgent.lowConfidence_le_review (ModelRouter.output_ne_empty _ _ (Platform.promptFor_ne_empty _ _ _ _ _ _) _ _)

/-- A run is counted, and has its response in the history if it is answered. -/
theorem RunsCounted.run (h : RunsCounted hub history) (auth : AuthContext) (request : UnifiedRequest)
    (hran : Ran (arrived hub draws) hub') {answer : Except HttpError PlatformAnswer}
    (hanswer : ∀ response, answer = .ok (.response response) → lowConfidence ≤ response.confidence) :
    RunsCounted hub' (history ++ [(⟨.run auth request, draws⟩, answer)]) where
  wired := hran.wired
  total := by
    rw [History.runs_concat, hran.total]
    exact congrArg (· + 1) h.total
  low := hran.low.trans h.low
  confident := by
    rw [History.answeredRuns_concat]
    intro run hrun
    obtain hold | hnew := List.mem_append.1 hrun
    · exact h.confident run hold
    · obtain ⟨response, hresponse, rfl⟩ : ∃ response, answer = .ok (.response response) ∧
          run = ⟨auth, request, draws, response⟩ := by
        obtain ⟨entry, hentry, hsome⟩ := List.mem_filterMap.1 hnew
        rw [List.mem_singleton] at hentry
        subst hentry
        obtain exc | response | ingested | skill := answer
        · cases hsome
        · exact ⟨response, rfl, (Option.some.inj hsome).symm⟩
        · cases hsome
        · cases hsome
      exact hanswer response hresponse

theorem RunsCounted.step (h : RunsCounted hub history) (call : PlatformCall) :
    RunsCounted ((platformApi P).respond hub call).2 (history ++ [(call, ((platformApi P).respond hub call).1)]) := by
  obtain ⟨⟨auth, request⟩ | ⟨auth, payload⟩ | ⟨auth, payload⟩, draws⟩ := call
  · obtain ⟨r, houtcome, hrespond⟩ := run_served h.wired draws auth request
    rw [hrespond]
    cases houtcome with
    | stopped ran => exact h.run auth request ran fun _ hanswer => nomatch hanswer
    | unrecorded ran => exact h.run auth request ran fun _ hanswer => nomatch hanswer
    | returned ran _ _ responds =>
      refine h.run auth request ran fun response hanswer => ?_
      cases hanswer
      exact responds.lowConfidence_le
  · rw [ingest_served]
    exact h.other rfl rfl _
  · rw [skill_served]
    refine h.other rfl ?_ _
    cases (outcome (createSkill payload auth hub.world.services.skills)).1 with
    | ok skill => rfl
    | error exc => rfl

/-- The run request answered with a response, and no other answer, is in the
history as an answered run. -/
theorem answeredRuns_ok (auth : AuthContext) (request : UnifiedRequest) (draws : Draws) (response : UnifiedResponse) :
    History.answeredRuns [(⟨.run auth request, draws⟩, .ok (.response response))] =
      [⟨auth, request, draws, response⟩] :=
  rfl

/-- Whatever the requests are: each run is counted, none has a low confidence, and
none is counted for one. -/
theorem runs_counted (hb : Built hub) (calls : List PlatformCall) :
    ((platformApi P).after hub calls).metrics.count "request.total" = calls.countP (·.isRun) ∧
      ((platformApi P).after hub calls).metrics.count "response.low_confidence" = 0 ∧
      ∀ run ∈ History.answeredRuns ((platformApi P).transcript hub calls), lowConfidence ≤ run.response.confidence := by
  have hinit : RunsCounted hub [] := by
    refine ⟨hb.wired, ?_, ?_, fun _ hrun => nomatch hrun⟩
    · rw [hb.metrics]
      rfl
    · rw [hb.metrics]
      rfl
  have hcounted := (platformApi P).transcript_inv (C := fun _ => True) hinit (fun h _ => h.step _)
    (fun call (_ : call ∈ calls) => trivial)
  refine ⟨hcounted.total.trans ?_, hcounted.low, hcounted.confident⟩
  rw [History.runs, Responder.map_fst_transcript]

/-! ## Memory and events -/

/-- What the services and the audit log have of a history. -/
structure Remembers (defaultTtlDays : Int) (hub : ToolHub (World P.shortTurns υ)) (history : History) : Prop where
  wired : Wired hub
  events : List.Forall₂ (fun payload (run : AnsweredRun) => run.Logs payload) (completedEvents hub) history.answeredRuns
  short : hub.world.services.short =
    Windows.ofRecords (history.answeredRuns.map fun run => (MemoryService.sessionKey run.session, run.content))
  long : hub.world.services.long = { defaultTtlDays, records := history.answeredRuns.map (·.record defaultTtlDays) }

/-- The log can be written while the request is served. -/
def PlatformCall.Recorded (call : PlatformCall) : Prop := ∀ i, (call.draws.fault i).raises = false

theorem PlatformCall.Recorded.not_raised {call : PlatformCall} (h : call.Recorded) :
    ¬ ∃ i, (call.draws.fault i).raises = true :=
  fun ⟨i, hraises⟩ => Bool.false_ne_true ((h i).symm.trans hraises)

variable {defaultTtlDays : Int}

/-- Requests that are not answered with a response. -/
theorem Remembers.other (h : Remembers defaultTtlDays hub history) (hwired : Wired hub')
    (hevents : completedEvents hub' = completedEvents hub) (hshort : hub'.world.services.short = hub.world.services.short)
    (hlong : hub'.world.services.long = hub.world.services.long) {entry : PlatformCall × Except HttpError PlatformAnswer}
    (hanswered : History.answeredRuns [entry] = []) : Remembers defaultTtlDays hub' (history ++ [entry]) := by
  refine ⟨hwired, ?_, ?_, ?_⟩
  all_goals rw [History.answeredRuns_concat, hanswered, List.append_nil]
  · rw [hevents]
    exact h.events
  · rw [hshort]
    exact h.short
  · rw [hlong]
    exact h.long

/-- Requests that only write other services. -/
theorem Remembers.kept (h : Remembers defaultTtlDays hub history) {services : Services P.shortTurns}
    (hshort : services.short = hub.world.services.short) (hlong : services.long = hub.world.services.long)
    {entry : PlatformCall × Except HttpError PlatformAnswer} (hanswered : History.answeredRuns [entry] = []) :
    Remembers defaultTtlDays ((arrived hub draws).withServices services) (history ++ [entry]) := by
  have hwired : Wired ((arrived hub draws).withServices services) := h.wired.of_eq rfl rfl rfl
  exact h.other hwired rfl hshort hlong hanswered

/-- An answered run is remembered. -/
theorem Remembers.returned (h : Remembers defaultTtlDays hub history) {auth : AuthContext} {request : UnifiedRequest}
    {response : UnifiedResponse} {skills : List SkillContextItem} (hwired : Wired hub')
    (hevents : completedEvents hub' = completedEvents hub ++
      [.completed response.traceId auth.tenantId request.taskType response.confidence response.citations.length
        response.actions.length skills.length])
    {disk : Disk Json} (hservices : hub'.world.services =
      (hub.world.services.withDisk disk).remember draws (bindUnifiedRequestAuth request auth) response.answer) :
    Remembers defaultTtlDays hub' (history ++ [(⟨.run auth request, draws⟩, .ok (.response response))]) := by
  refine ⟨hwired, ?_, ?_, ?_⟩
  all_goals rw [History.answeredRuns_concat, answeredRuns_ok]
  · rw [hevents]
    exact List.rel_append h.events (.cons ⟨skills.length, rfl⟩ .nil)
  · rw [List.map_append, List.map_singleton, Windows.ofRecords_concat, ← h.short, hservices]
    rfl
  · rw [List.map_append, List.map_singleton, hservices, Services.remember, Services.withDisk, h.long]
    rfl

theorem Remembers.step (h : Remembers defaultTtlDays hub history) (call : PlatformCall) (hrecorded : call.Recorded) :
    Remembers defaultTtlDays ((platformApi P).respond hub call).2
      (history ++ [(call, ((platformApi P).respond hub call).1)]) := by
  obtain ⟨⟨auth, request⟩ | ⟨auth, payload⟩ | ⟨auth, payload⟩, draws⟩ := call
  · obtain ⟨r, houtcome, hrespond⟩ := run_served h.wired draws auth request
    rw [hrespond]
    cases houtcome with
    | stopped ran _ _ services events =>
      have hshort := congrArg Services.short services
      have hlong := congrArg Services.long services
      exact h.other ran.wired events hshort hlong rfl
    | unrecorded _ _ raised => exact absurd raised hrecorded.not_raised
    | returned ran _ _ _ services events => exact h.returned ran.wired events services
  · rw [ingest_served]
    show Remembers defaultTtlDays ((arrived hub draws).withServices _) (history ++ [(_, _)])
    refine h.kept ?_ ?_ ?_ <;> rfl
  · rw [skill_served]
    show Remembers defaultTtlDays ((arrived hub draws).withServices _) (history ++ [(_, _)])
    refine h.kept ?_ ?_ ?_
    · rfl
    · rfl
    · cases (outcome (createSkill payload auth hub.world.services.skills)).1 with
      | ok skill => rfl
      | error exc => rfl

/-- A new container has seen nothing. -/
theorem Built.remembers (hb : Built hub) : Remembers hub.world.services.long.defaultTtlDays hub [] := by
  refine ⟨hb.wired, ?_, hb.short, ?_⟩
  · rw [completedEvents, hb.log]
    exact .nil
  · rw [History.answeredRuns, List.filterMap_nil, List.map_nil, ← hb.long]

/-- While the audit log can be written: its events are those of the answered runs,
the window of a session has the last of the turns answered under its key, and the
long-term memory has one record for each answer, all in the order of the answers. -/
theorem runs_remembered (hb : Built hub) (calls : List PlatformCall) (hrecorded : ∀ call ∈ calls, call.Recorded) :
    let history : History := (platformApi P).transcript hub calls
    let services := ((platformApi P).after hub calls).world.services
    List.Forall₂ (fun payload (run : AnsweredRun) => run.Logs payload)
        (completedEvents ((platformApi P).after hub calls)) history.answeredRuns ∧
      (∀ session, MemoryService.readShort services.short session = (history.turns session).rtake P.shortTurns) ∧
      services.long.records = history.answeredRuns.map (·.record hub.world.services.long.defaultTtlDays) := by
  intro history services
  have h := (platformApi P).transcript_inv (C := PlatformCall.Recorded) hb.remembers (fun h hcall => h.step _ hcall)
    hrecorded
  refine ⟨h.events, fun session => ?_, congrArg LongTermMemoryStore.records h.long⟩
  rw [MemoryService.readShort, ShortTermMemoryStore.window, h.short, Windows.window_ofRecords, History.historyOf_turns]

theorem runs_counted_calls :
    let calls : List PlatformCall := [⟨.run someCaller greeting, quietDraws "t1"⟩, ⟨.run someCaller greeting, quietDraws "t2"⟩]
    ((platformApi emptyPlatform).after emptyHub calls).metrics.count "request.total" = 2 :=
  (runs_counted emptyHub_built _).1

/-- A run whose overrides cannot be merged is not answered. -/
theorem not_answered_of_not_mergeable (hw : Wired hub) (auth : AuthContext) (request : UnifiedRequest)
    (h : ¬ Mergeable P.builtins draws.traceId (bindUnifiedRequestAuth request auth)) :
    ∃ error, ((platformApi P).respond hub ⟨.run auth request, draws⟩).1 = .error error := by
  obtain ⟨r, houtcome, hrespond⟩ := run_served hw draws auth request
  rw [hrespond]
  cases houtcome with
  | stopped => exact ⟨_, rfl⟩
  | unrecorded => exact ⟨_, rfl⟩
  | returned _ _ merged => exact absurd merged h

/-- A request to send an email, with an override for the tool. -/
def mailWith (override : Json) : UnifiedRequest :=
  { ExecutorAgent.mailRequest with toolOverrides := Dict.empty.set "send_email" override }

theorem not_mergeable_null (traceId : String) :
    ¬ Mergeable emptyPlatform.builtins traceId (bindUnifiedRequestAuth (mailWith .null) someCaller) := by
  intro hmergeable
  obtain ⟨pairs, hpairs⟩ := hmergeable rfl "send_email" (by decide)
  cases hpairs

/-- A greeting is answered and remembered, and an email whose override is `null` is
neither. -/
theorem greeting_remembered :
    let calls : List PlatformCall :=
      [⟨.run someCaller greeting, quietDraws "t1"⟩, ⟨.run someCaller (mailWith .null), quietDraws "t2"⟩]
    let hub := (platformApi emptyPlatform).after mailingHub calls
    (completedEvents hub).length = 1 ∧
      (MemoryService.readShort hub.world.services.short ⟨"acme", "u1", "s1"⟩).length = 1 ∧
      hub.world.services.long.records = [LongTermMemoryStore.newRecord { defaultTtlDays := 30 } 0 "acme" "u1"
        "Preferred context from trace t1" (some ["auto-summary"]) none] := by
  intro calls hub
  obtain ⟨response, hresponse⟩ := question_served mailingHub_wired (quietDraws "t1") someCaller greeting
    emptyPlatform_skills (by decide) rfl
  have hw := mailingHub_wired.respond (P := emptyPlatform) ⟨.run someCaller greeting, quietDraws "t1"⟩
  obtain ⟨error, herror⟩ := not_answered_of_not_mergeable hw someCaller (mailWith .null) (not_mergeable_null "t2")
  have hrecorded : ∀ call ∈ calls, call.Recorded := by
    intro call hcall
    obtain hcall | hcall := List.mem_cons.1 hcall
    · exact hcall ▸ fun _ => rfl
    · exact List.mem_singleton.1 hcall ▸ fun _ => rfl
  have hruns : History.answeredRuns ((platformApi emptyPlatform).transcript mailingHub calls) =
      [⟨someCaller, greeting, quietDraws "t1", response⟩] := by
    rw [Responder.transcript, hresponse, Responder.transcript, herror]
    rfl
  obtain ⟨hevents, hshort, hrecords⟩ := runs_remembered mailingHub_built calls hrecorded
  refine ⟨?_, ?_, ?_⟩
  · rw [hevents.length_eq, hruns]
    rfl
  · rw [hshort, History.turns, hruns]
    rfl
  · rw [hrecords, hruns]
    rfl

/-! ## Old memories -/

/-- A request removes no record of the long-term memory. -/
theorem long_prefix_respond (hw : Wired hub) (call : PlatformCall) :
    hub.world.services.long.records <+: ((platformApi P).respond hub call).2.world.services.long.records := by
  obtain ⟨⟨auth, request⟩ | ⟨auth, payload⟩ | ⟨auth, payload⟩, draws⟩ := call
  · obtain ⟨r, houtcome, hrespond⟩ := run_served hw draws auth request
    rw [hrespond]
    obtain ⟨disk, -, hservices | ⟨answer, hservices⟩⟩ := houtcome.services
    · exact (congrArg (·.long.records) hservices).symm ▸ List.prefix_rfl
    · exact (congrArg (·.long.records) hservices).symm ▸ List.prefix_append ..
  · rw [ingest_served]
    exact List.prefix_rfl
  · rw [skill_served]
    exact List.prefix_rfl

theorem long_prefix_after (hw : Wired hub) (calls : List PlatformCall) :
    hub.world.services.long.records <+: ((platformApi P).after hub calls).world.services.long.records := by
  induction calls generalizing hub with
  | nil => exact List.prefix_rfl
  | cons call calls ih => exact (long_prefix_respond hw call).trans (ih (hw.respond call))

/-- Once a query finds five long-term memories of a user it finds the same five until
one of them expires: what is remembered meanwhile is not read. -/
theorem readLong_stays (hw : Wired hub) (calls : List PlatformCall) (now now' : Time) (h : now ≤ now')
    (tenantId userId query : String)
    (hfull : (MemoryService.readLong P.builtins.lower hub.world.services.long now tenantId userId query).length = 5)
    (hvalid : ∀ record ∈ hub.world.services.long.search P.builtins.lower now tenantId userId query,
      now' < record.expiresAt) :
    MemoryService.readLong P.builtins.lower ((platformApi P).after hub calls).world.services.long now' tenantId userId
        query =
      MemoryService.readLong P.builtins.lower hub.world.services.long now tenantId userId query := by
  rw [MemoryService.readLong, List.length_map] at hfull
  have hsearch := LongTermMemoryStore.search_of_prefix (long_prefix_after hw calls) h 5 hfull hvalid
  exact congrArg (List.map (·.content)) hsearch

/-- An empty container with five memories of a user. -/
def fiveMemories : ToolHub (World emptyPlatform.shortTurns Unit) :=
  emptyHub.withServices { Services.init with
    long := {
      defaultTtlDays := 30
      records := ["a", "b", "c", "d", "e"].map fun content =>
        LongTermMemoryStore.newRecord { defaultTtlDays := 30 } 0 "acme" "u1" content none none } }

/-- The five are still read once a greeting is remembered. -/
theorem fiveMemories_stay :
    MemoryService.readLong asciiBuiltins.lower
        ((platformApi emptyPlatform).after fiveMemories [⟨.run someCaller greeting, quietDraws "t1"⟩]).world.services.long
        1 "acme" "u1" "" =
      ["a", "b", "c", "d", "e"] := by
  have hw : Wired fiveMemories := ⟨rfl, rfl, fun _ htool => nomatch htool⟩
  exact (readLong_stays hw _ 0 1 (by decide) "acme" "u1" "" (by decide) (by decide)).trans (by decide)

/-! ## Answers -/

/-- While the audit log can be written a run is answered exactly if the overrides of
the tools that it plans can be merged and the skills load once they have run. -/
theorem run_answered_iff (hb : Built hub) (calls : List PlatformCall) (auth : AuthContext) (request : UnifiedRequest)
    (hrecorded : PlatformCall.Recorded ⟨.run auth request, draws⟩) :
    let served := (platformApi P).respond ((platformApi P).after hub calls) ⟨.run auth request, draws⟩
    (∃ response, served.1 = .ok (.response response)) ↔
      Mergeable P.builtins draws.traceId (bindUnifiedRequestAuth request auth) ∧
        ∃ skills, skillsOf P served.2.world.services = .ok skills := by
  intro served
  obtain ⟨r, houtcome, hrespond⟩ := run_served (hb.wired.after calls) draws auth request
  have hserved : served = (runAnswer r, finalState r) := hrespond
  rw [hserved]
  cases houtcome with
  | stopped _ _ cause services =>
    refine ⟨fun ⟨_, hanswered⟩ => (nomatch hanswered), fun ⟨hmergeable, skills, hskills⟩ => ?_⟩
    obtain ⟨exc, hexc⟩ := cause hmergeable
    have hloaded : skillsOf P _ = .ok skills := services ▸ hskills
    rw [hexc] at hloaded
    cases hloaded
  | unrecorded _ _ raised => exact absurd raised hrecorded.not_raised
  | returned _ _ merged responds services =>
    refine ⟨fun _ => ⟨merged, ?_⟩, fun _ => ⟨_, rfl⟩⟩
    exact ⟨_, (congrArg (skillsOf P) services).trans responds.loaded⟩

/-- A run keeps the skills if no tool writes where they are. -/
theorem skills_respond (hw : Wired hub) (happart : ServicesApart hub) (auth : AuthContext) (request : UnifiedRequest) :
    skillsOf P ((platformApi P).respond hub ⟨.run auth request, draws⟩).2.world.services = skillsOf P hub.world.services := by
  obtain ⟨r, houtcome, hrespond⟩ := run_served hw draws auth request
  rw [hrespond]
  obtain ⟨disk, hkept, hservices | ⟨answer, hservices⟩⟩ := houtcome.services
  · exact congrArg (skillsOf P) (hservices.trans (hkept (happart.of_registry rfl)))
  · rw [hkept (happart.of_registry rfl)] at hservices
    exact (congrArg (skillsOf P) hservices).trans rfl

/-- After a text was ingested and a greeting answered, a request for an email is
answered, and one with an override that is `null` is not. -/
theorem mail_answered :
    let calls : List PlatformCall := [
      ⟨.ingestText someCaller { sourceId := "doc", text := "good evening", text_ne := by decide }, quietDraws "t1"⟩,
      ⟨.run someCaller greeting, quietDraws "t2"⟩]
    let mail (override : Json) := ((platformApi emptyPlatform).respond ((platformApi emptyPlatform).after mailingHub calls)
      ⟨.run someCaller (mailWith override), quietDraws "t3"⟩).1
    (∃ response, mail (.obj [("to", .str "bob@company.com")]) = .ok (.response response)) ∧
      ¬ ∃ response, mail .null = .ok (.response response) := by
  intro calls mail
  have hw := mailingHub_wired.after (P := emptyPlatform) (calls.take 1)
  have happart : ServicesApart ((platformApi emptyPlatform).after mailingHub (calls.take 1)) :=
    mailingHub_apart.of_registry (registry_respond mailingHub_wired _)
  have hlast := (platformApi emptyPlatform).after_concat mailingHub (calls.take 1)
    ⟨.run someCaller greeting, quietDraws "t2"⟩
  have hskills : skillsOf emptyPlatform ((platformApi emptyPlatform).after mailingHub calls).world.services = .ok [] := by
    refine (congrArg (fun hub : ToolHub (World emptyPlatform.shortTurns Unit) => skillsOf emptyPlatform hub.world.services)
      hlast).trans ?_
    exact (skills_respond hw happart someCaller greeting).trans emptyPlatform_skills
  have happart' : ServicesApart ((platformApi emptyPlatform).after mailingHub calls) :=
    happart.of_registry ((congrArg ToolHub.registry hlast).trans (registry_respond hw _))
  constructor
  · refine (run_answered_iff mailingHub_built calls someCaller _ fun _ => rfl).2 ⟨fun _ toolName hname => ?_, [], ?_⟩
    · obtain rfl : toolName = "send_email" := List.mem_singleton.1 hname
      exact ⟨_, rfl⟩
    · exact (skills_respond (mailingHub_wired.after calls) happart' someCaller _).trans hskills
  · intro hanswered
    exact not_mergeable_null "t3" ((run_answered_iff mailingHub_built calls someCaller _ fun _ => rfl).1 hanswered).1

end Ochestrate
