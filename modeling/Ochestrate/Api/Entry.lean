import Ochestrate.Api.Gateway
import Ochestrate.Api.Turns

/-!
# The services behind the gateway

Requests to run the agent, to ingest a text or to create a skill reach the
container's services with the context that the gateway accepts, and not without
one. Over the whole, from a log-in to the audit log: every request that the
services have seen, so every answered run and its event in the log, is from
somebody who was an active user, with the role that the request has, less than the
time to live of an access token before (`services_authenticated`).
-/

namespace Ochestrate

variable {τ υ : Type} {G : Gateway τ} {P : Platform}

/-- What a request to one of the services asks for. -/
inductive ServiceBody
  | run (request : UnifiedRequest)
  | ingestText (payload : IngestTextRequest)
  | createSkill (payload : CreateSkillRequest)

/-- The request, with its caller. -/
def ServiceBody.requestOf (auth : AuthContext) : ServiceBody → PlatformRequest
  | run request => .run auth request
  | ingestText payload => .ingestText auth payload
  | createSkill payload => .createSkill auth payload

/-- The auth service, the container's services, and what these have answered. -/
structure EntryState (τ : Type) (P : Platform) (υ : Type) where
  auth : AuthRun τ
  hub : ToolHub (World P.shortTurns υ)
  history : History := []

inductive EntryEvent (τ : Type)
  | tick (d : Nat)
  | request (request : ApiRequest τ) (draw : Draw)
  | service (header : String) (body : ServiceBody) (draws : Draws) (draw : Draw)

/-- The event as the gateway sees it. -/
def EntryEvent.atGateway : EntryEvent τ → GatewayEvent τ
  | .tick d => .tick d
  | .request asked draw => .request asked draw
  | .service header _ _ draw => .request ⟨header, .business⟩ draw

/-- The services answer a request that the gateway lets through. -/
def EntryState.served (s : EntryState τ P υ) (call : PlatformCall) (auth : AuthRun τ) : EntryState τ P υ where
  auth := auth
  hub := ((platformApi P).respond s.hub call).2
  history := s.history ++ [(call, ((platformApi P).respond s.hub call).1)]

/-- The machine of the requests to the gateway and to the services. -/
def entry [DecidableEq τ] (G : Gateway τ) (P : Platform) : Machine (EntryState τ P υ) (EntryEvent τ) where
  step s e := ((gateway G).step s.auth e.atGateway).map fun auth =>
    match e with
    | .tick _ | .request _ _ => { s with auth }
    | .service header body draws draw =>
      match G.answer s.auth.now draw ⟨header, .business⟩ s.auth.repo with
      | .ok (.reached context) _ => s.served ⟨body.requestOf context, draws⟩ auth
      | _ => { s with auth }

/-- A handler runs with the context of the header. -/
theorem contextOf_of_reached {now : Time} {draw : Draw} {header : String} {repo repo' : AuthRepository}
    {context : AuthContext} (h : G.answer now draw ⟨header, .business⟩ repo = .ok (.reached context) repo') :
    G.contextOf now header = .ok (some context) := by
  unfold Gateway.answer at h
  cases hcontext : G.contextOf now header with
  | error exc =>
    rw [hcontext] at h
    cases h
  | ok found =>
    rw [hcontext] at h
    cases found with
    | none => cases h
    | some auth =>
      obtain ⟨hreached, -⟩ := EStateM.Result.ok.inj h
      rw [ApiAnswer.reached.inj hreached]

variable [DecidableEq τ] {s s' : EntryState τ P υ} {e : EntryEvent τ}

/-- What a step does: the services are as they were, or they answer a request with
the context of its header. -/
theorem entry_step (h : (entry G P).step s e = some s') :
    (gateway G).step s.auth e.atGateway = some s'.auth ∧
      (s'.hub = s.hub ∧ s'.history = s.history ∨
        ∃ header body draws draw context, e = .service header body draws draw ∧
          G.contextOf s.auth.now header = .ok (some context) ∧
          s' = s.served ⟨body.requestOf context, draws⟩ s'.auth) := by
  obtain ⟨auth, hauth, hs'⟩ := Option.map_eq_some_iff.1 h
  cases e with
  | tick | request =>
    subst hs'
    exact ⟨hauth, .inl ⟨rfl, rfl⟩⟩
  | service header body draws draw =>
    dsimp only at hs'
    split at hs'
    · rename_i context repo' hanswer
      subst hs'
      exact ⟨hauth, .inr ⟨header, body, draws, draw, context, rfl, contextOf_of_reached hanswer, rfl⟩⟩
    · subst hs'
      exact ⟨hauth, .inl ⟨rfl, rfl⟩⟩

/-- A run is a run of the gateway. -/
theorem run_atGateway {es : List (EntryEvent τ)} (h : (entry G P).run s es = some s') :
    (gateway G).run s.auth (es.map EntryEvent.atGateway) = some s'.auth := by
  induction es generalizing s with
  | nil =>
    obtain rfl := Option.some.inj h
    rfl
  | cons e es ih =>
    obtain ⟨s₁, h₁, h₂⟩ := Option.bind_eq_some_iff.1 h
    rw [List.map_cons, Machine.run_cons_some _ (entry_step h₁).1]
    exact ih h₂

/-- Every prefix of a run's events is a run. -/
theorem run_prefix {es es' : List (EntryEvent τ)} (h : (entry G P).run s (es ++ es') = some s') :
    ∃ s₁, (entry G P).run s es = some s₁ ∧ (entry G P).run s₁ es' = some s' := by
  rw [Machine.run_append] at h
  exact Option.bind_eq_some_iff.1 h

/-- The request is one of the events, and its caller was an active user in an
earlier state, no longer ago than an access token lives. -/
def Authenticated (G : Gateway τ) (P : Platform) (s₀ : EntryState τ P υ) (es : List (EntryEvent τ))
    (call : PlatformCall) : Prop :=
  ∃ es₀ es₁ header body draw es₂ s₁ s₂, es = es₀ ++ es₁ ++ .service header body call.draws draw :: es₂ ∧
    call.request = body.requestOf call.auth ∧
    (entry G P).run s₀ es₀ = some s₁ ∧ (entry G P).run s₀ (es₀ ++ es₁) = some s₂ ∧
    s₁.auth.repo.HasActive call.auth.tenantId call.auth.userId call.auth.role ∧ s₁.auth.now ≤ s₂.auth.now ∧
    s₂.auth.now < G.auth.accessEnd s₁.auth.now

/-- A header that the gateway accepts names somebody who was active in an earlier
state of the run. -/
theorem was_active {mode : RepoMode} {now₀ : Time} {s₀ : EntryState τ P υ} (hs₀ : s₀.auth = .start mode now₀)
    {es : List (EntryEvent τ)} (h : (entry G P).run s₀ es = some s) {header : String}
    (hg : ∀ token ∈ G.headerToken header, s.auth.Genuine G.auth token) {context : AuthContext}
    (hcontext : G.contextOf s.auth.now header = .ok (some context)) :
    ∃ es₀ es₁ s₁, es = es₀ ++ es₁ ∧ (entry G P).run s₀ es₀ = some s₁ ∧
      s₁.auth.repo.HasActive context.tenantId context.userId context.role ∧ s₁.auth.now ≤ s.auth.now ∧
      s.auth.now < G.auth.accessEnd s₁.auth.now := by
  have hrun := run_atGateway h
  rw [hs₀] at hrun
  obtain ⟨gs₀, e, gs₁, s₁, hgs, h₁, hactive, hnow⟩ := accepted_was_active G mode now₀ hrun hg hcontext
  obtain ⟨es₀, es₁, rfl, rfl, -⟩ := List.map_eq_append_iff.1 hgs
  obtain ⟨s₁', h₁', -⟩ := run_prefix h
  have hsame := run_atGateway h₁'
  rw [hs₀, h₁] at hsame
  obtain rfl := Option.some.inj hsame
  exact ⟨es₀, es₁, s₁', rfl, h₁', hactive, hnow⟩

theorem PlatformCall.auth_requestOf (body : ServiceBody) (context : AuthContext) (draws : Draws) :
    PlatformCall.auth ⟨body.requestOf context, draws⟩ = context := by
  cases body <;> rfl

/-- What the services have seen is authenticated. -/
theorem history_authenticated {mode : RepoMode} {now₀ : Time} {hub : ToolHub (World P.shortTurns υ)}
    {es : List (EntryEvent τ)} (h : (entry G P).run ⟨.start mode now₀, hub, []⟩ es = some s)
    {asked : PlatformCall × Except HttpError PlatformAnswer} (hasked : asked ∈ s.history) :
    Authenticated G P ⟨.start mode now₀, hub, []⟩ es asked.1 := by
  obtain ⟨es₁, e, es₂, s₁, s₂, rfl, h₁, h₂, -, hold, hnew⟩ := (entry G P).run_acquires
    (P := fun s => asked ∈ s.history) h List.not_mem_nil hasked
  obtain ⟨hgateway, ⟨-, hhistory⟩ | ⟨header, body, draws, draw, context, rfl, hcontext, hs₂⟩⟩ := entry_step h₂
  · exact absurd (hhistory ▸ hnew) hold
  · rw [hs₂, EntryState.served, List.mem_append, List.mem_singleton] at hnew
    obtain rfl := hnew.resolve_left hold
    obtain ⟨⟨-, hg⟩, -⟩ := Option.ite_none_right_eq_some.1 hgateway
    obtain ⟨es₀, es₁, s₁', rfl, h₀, hactive, hnow⟩ := was_active rfl h₁ (header_genuine hg) hcontext
    have hauth := PlatformCall.auth_requestOf body context draws
    refine ⟨es₀, es₁, header, body, draw, es₂, s₁', s₁, rfl, by rw [hauth], h₀, h₁, ?_⟩
    rw [hauth]
    exact ⟨hactive, hnow⟩

/-- The audit log can be written while the services answer. -/
def EntryEvent.Recorded : EntryEvent τ → Prop
  | .service _ _ draws _ => ∀ i, (draws.fault i).raises = false
  | _ => True

omit [DecidableEq τ] in
theorem mem_history_of_mem_answeredRuns {history : History} {run : AnsweredRun} (h : run ∈ history.answeredRuns) :
    (⟨.run run.auth run.request, run.draws⟩, .ok (.response run.response)) ∈ history := by
  obtain ⟨asked, hasked, hrun⟩ := List.mem_filterMap.1 h
  split at hrun
  · obtain rfl := Option.some.inj hrun
    exact hasked
  · cases hrun

theorem remembers_keeps (G : Gateway τ) (P : Platform) (defaultTtlDays : Int) :
    (entry G P : Machine (EntryState τ P υ) (EntryEvent τ)).Keeps (fun _ e => e.Recorded) fun s => Remembers defaultTtlDays s.hub s.history := by
  intro s e s' hrecorded h hremembers
  obtain ⟨-, ⟨hhub, hhistory⟩ | ⟨header, body, draws, draw, context, rfl, -, hs'⟩⟩ := entry_step h
  · rw [hhub, hhistory]
    exact hremembers
  · rw [hs']
    exact hremembers.step _ hrecorded

/-- In every run, from an empty auth store and a container as it is built, while the
audit log can be written: its events and the long-term memory are those of the
answered runs, and every request that the services have answered is one of the
run's, from somebody who was an active user, with the role of the request, in an
earlier state, less than the time to live of an access token before. -/
theorem services_authenticated (G : Gateway τ) (mode : RepoMode) (now₀ : Time) {hub : ToolHub (World P.shortTurns υ)}
    (hb : Built hub) {es : List (EntryEvent τ)} (h : (entry G P).run ⟨.start mode now₀, hub, []⟩ es = some s)
    (hrecorded : ∀ e ∈ es, e.Recorded) :
    List.Forall₂ (fun payload (run : AnsweredRun) => run.Logs payload ∧
        Authenticated G P ⟨.start mode now₀, hub, []⟩ es ⟨.run run.auth run.request, run.draws⟩)
      (completedEvents s.hub) s.history.answeredRuns ∧
    s.hub.world.services.long.records =
      s.history.answeredRuns.map (·.record hub.world.services.long.defaultTtlDays) ∧
    ∀ asked ∈ s.history, Authenticated G P ⟨.start mode now₀, hub, []⟩ es asked.1 := by
  have hremembers := (entry G P).run_inv (remembers_keeps G P hub.world.services.long.defaultTtlDays)
    ((entry G P).meets_of_forall hrecorded) h hb.remembers
  have hauthenticated : ∀ asked ∈ s.history, Authenticated G P ⟨.start mode now₀, hub, []⟩ es asked.1 :=
    fun asked hasked => history_authenticated h hasked
  refine ⟨?_, congrArg LongTermMemoryStore.records hremembers.long, hauthenticated⟩
  have hruns : ∀ run ∈ s.history.answeredRuns,
      Authenticated G P ⟨.start mode now₀, hub, []⟩ es ⟨.run run.auth run.request, run.draws⟩ :=
    fun run hrun => hauthenticated _ (mem_history_of_mem_answeredRuns hrun)
  have hboth := (List.forall₂_and_left _ _).2 ⟨hruns, hremembers.events.flip⟩
  exact hboth.flip.imp fun payload run h => ⟨h.2, h.1⟩

/-- Alice asks for a greeting after she has logged in. -/
def aliceGreets : List (EntryEvent TokenPayload) :=
  [.request ⟨"", .bootstrapAdmin
      { tenantId := some "acme", username := "alice", password := "welcome", password_long := by decide }⟩
      (plainDraw "u1" "x1"),
    .request ⟨"", .login ⟨"acme", "alice", "welcome", by decide⟩⟩ (plainDraw "s1" "t1"),
    .service "Bearer alice" (.run greeting) (quietDraws "t1") (plainDraw "x2" "x3")]

set_option maxRecDepth 8000 in
/-- `services_authenticated` for her. -/
theorem services_authenticated_greeting :
    ∃ s : EntryState TokenPayload emptyPlatform Unit,
      (entry acmeGateway emptyPlatform).run ⟨.start .database 0, emptyHub, []⟩ aliceGreets = some s ∧
        s.history.length = 1 ∧
        ∀ asked ∈ s.history,
          Authenticated acmeGateway emptyPlatform ⟨.start .database 0, emptyHub, []⟩ aliceGreets asked.1 := by
  have hrun : ∃ s : EntryState TokenPayload emptyPlatform Unit,
      (entry acmeGateway emptyPlatform).run ⟨.start .database 0, emptyHub, []⟩ aliceGreets = some s ∧
        s.history.length = 1 := ⟨_, rfl, rfl⟩
  obtain ⟨s, hs, hlength⟩ := hrun
  have hrecorded : ∀ e ∈ aliceGreets, e.Recorded :=
    List.forall_mem_cons.2 ⟨trivial, List.forall_mem_cons.2 ⟨trivial, List.forall_mem_singleton.2 fun _ => rfl⟩⟩
  exact ⟨s, hs, hlength, (services_authenticated acmeGateway .database 0 emptyHub_built hs hrecorded).2.2⟩

end Ochestrate
