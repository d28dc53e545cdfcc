import Ochestrate.Framework.Transcript
import Ochestrate.Orchestration.Outcome

/-!
# The endpoints over the container's services

`POST /agent/run`, `POST /knowledge/ingest-text` and `POST /skills` over one
container with repositories in memory. `platformApi` answers them one after the
other; `run_served`, `ingest_served` and `skill_served` say what each does to the
services, for the theorems about whole runs.
-/

namespace Ochestrate

open ToolHub

variable {υ : Type}

/-- The requests, each with its caller. -/
inductive PlatformRequest
  | run (auth : AuthContext) (request : UnifiedRequest)
  | ingestText (auth : AuthContext) (payload : IngestTextRequest)
  | createSkill (auth : AuthContext) (payload : CreateSkillRequest)

/-- A request, and what it draws. -/
structure PlatformCall where
  request : PlatformRequest
  draws : Draws

def PlatformCall.auth (call : PlatformCall) : AuthContext :=
  match call.request with
  | .run auth _ | .ingestText auth _ | .createSkill auth _ => auth

inductive PlatformAnswer
  | response (response : UnifiedResponse)
  | ingested (response : IngestResponse)
  | skill (skill : SkillSpec)

/-- The hub once the services have changed. -/
def ToolHub.withServices {shortTurns : Nat} (hub : ToolHub (World shortTurns υ)) (services : Services shortTurns) :
    ToolHub (World shortTurns υ) :=
  { hub with world := { hub.world with services } }

namespace Platform

variable (P : Platform)

/-- A request arrives: what it draws is there. -/
def arrive (draws : Draws) : EStateM HttpError (ToolHub (World P.shortTurns υ)) Unit :=
  modify fun hub => { hub with world := { hub.world with draws, recorded := 0 } }

/-- `run_agent`; an exception is answered by the framework. -/
def runAgent (request : UnifiedRequest) (auth : AuthContext) :
    EStateM HttpError (ToolHub (World P.shortTurns υ)) UnifiedResponse :=
  answering (fun _ => internalServerError) (Ochestrate.runAgent P.builtins P.collaborators P.graph request auth)

/-- `ingest_text` over a store in memory. -/
def ingestText (payload : IngestTextRequest) (auth : AuthContext) :
    EStateM HttpError (ToolHub (World P.shortTurns υ)) IngestResponse := do
  let chunks := requestChunks P.md5 P.pipeline payload auth
  modify fun hub => hub.withServices { hub.world.services with
    knowledge := hub.world.services.knowledge.addChunks chunks }
  return { accepted := true, chunks := chunks.length }

/-- `create_skill` -/
def createSkill (payload : CreateSkillRequest) (auth : AuthContext) :
    EStateM HttpError (ToolHub (World P.shortTurns υ)) SkillSpec :=
  zoomed (·.world.services.skills)
    (fun hub skills => hub.withServices { hub.world.services with skills })
    (Ochestrate.createSkill payload auth)

/-- The endpoint of a request. -/
def handle (call : PlatformCall) : EStateM HttpError (ToolHub (World P.shortTurns υ)) PlatformAnswer := do
  P.arrive call.draws
  match call.request with
  | .run auth request => return .response (← P.runAgent request auth)
  | .ingestText auth payload => return .ingested (← P.ingestText payload auth)
  | .createSkill auth payload => return .skill (← P.createSkill payload auth)

end Platform

/-- The container as its callers see it. -/
def platformApi (P : Platform) :
    Responder (ToolHub (World P.shortTurns υ)) PlatformCall (Except HttpError PlatformAnswer) :=
  ⟨fun hub call => outcome (P.handle call hub)⟩

/-! ## What a request does -/

section Served

variable {P : Platform} {hub : ToolHub (World P.shortTurns υ)} {draws : Draws}

/-- The hub when a request has arrived. -/
def arrived (hub : ToolHub (World P.shortTurns υ)) (draws : Draws) : ToolHub (World P.shortTurns υ) :=
  { hub with world := { hub.world with draws, recorded := 0 } }

theorem Wired.arrived (hw : Wired hub) (draws : Draws) : Wired (arrived hub draws) := hw.of_eq rfl rfl rfl

/-- The answer to a run. -/
def runAnswer {σ : Type} : EStateM.Result Exc σ UnifiedResponse → Except HttpError PlatformAnswer
  | .ok response _ => .ok (.response response)
  | .error _ _ => .error internalServerError

/-- A run is answered with its response, or with a server error. -/
theorem run_respond (hub : ToolHub (World P.shortTurns υ)) (draws : Draws) (auth : AuthContext) (request : UnifiedRequest) :
    (platformApi P).respond hub ⟨.run auth request, draws⟩ =
      (runAnswer ((orchestrator P.builtins P.collaborators P.graph).run (bindUnifiedRequestAuth request auth)
          (arrived hub draws)),
        finalState ((orchestrator P.builtins P.collaborators P.graph).run (bindUnifiedRequestAuth request auth)
          (arrived hub draws))) := by
  have hhandle : P.handle ⟨.run auth request, draws⟩ hub =
      (P.runAgent request auth >>= fun response => pure (PlatformAnswer.response response)) (arrived hub draws) := rfl
  show outcome (P.handle _ hub) = _
  rw [hhandle]
  unfold Platform.runAgent runAgent
  cases hrun : (orchestrator P.builtins P.collaborators P.graph).run (bindUnifiedRequestAuth request auth)
      (arrived hub draws) with
  | ok response hub' =>
    have hanswering : answering (fun _ => internalServerError) ((orchestrator P.builtins P.collaborators P.graph).run
        (bindUnifiedRequestAuth request auth)) (arrived hub draws) = .ok response hub' := by
      simp only [answering, hrun]
    rw [bind_ok hanswering]
    rfl
  | error exc hub' =>
    have hanswering : answering (fun _ => internalServerError) ((orchestrator P.builtins P.collaborators P.graph).run
        (bindUnifiedRequestAuth request auth)) (arrived hub draws) = .error internalServerError hub' := by
      simp only [answering, hrun]
    rw [bind_error hanswering]
    rfl

theorem run_served (hw : Wired hub) (draws : Draws) (auth : AuthContext) (request : UnifiedRequest) :
    ∃ r, RunOutcome P (arrived hub draws) (bindUnifiedRequestAuth request auth) r ∧
      (platformApi P).respond hub ⟨.run auth request, draws⟩ = (runAnswer r, finalState r) :=
  ⟨_, run_outcome (hw.arrived draws) P.graph (bindUnifiedRequestAuth request auth), run_respond hub draws auth request⟩

/-- A question is answered if the skills load and its event can be written. -/
theorem question_served (hw : Wired hub) (draws : Draws) (auth : AuthContext) (request : UnifiedRequest)
    {skills : List SkillContextItem} (hskills : skillsOf P hub.world.services = .ok skills)
    (hplan : toolNamesOf (PlannerAgent.plan P.builtins (bindUnifiedRequestAuth request auth)) = [])
    (hfault : draws.fault 0 = .none) :
    ∃ response, ((platformApi P).respond hub ⟨.run auth request, draws⟩).1 = .ok (.response response) := by
  obtain ⟨response, hub', hrun⟩ := run_untooled (hw.arrived draws) P.graph hplan hskills hfault
  refine ⟨response, ?_⟩
  rw [run_respond, hrun]
  rfl

/-- The chunks of a text are added. -/
theorem ingest_served (hub : ToolHub (World P.shortTurns υ)) (draws : Draws) (auth : AuthContext)
    (payload : IngestTextRequest) :
    (platformApi P).respond hub ⟨.ingestText auth payload, draws⟩ =
      (.ok (.ingested { accepted := true, chunks := (requestChunks P.md5 P.pipeline payload auth).length }),
        (arrived hub draws).withServices { hub.world.services with
          knowledge := hub.world.services.knowledge.addChunks (requestChunks P.md5 P.pipeline payload auth) }) :=
  rfl

/-- A skill is written, or the center is left as a failed write leaves it. -/
theorem skill_served (hub : ToolHub (World P.shortTurns υ)) (draws : Draws) (auth : AuthContext)
    (payload : CreateSkillRequest) :
    (platformApi P).respond hub ⟨.createSkill auth payload, draws⟩ =
      ((outcome (createSkill payload auth hub.world.services.skills)).1.map .skill,
        (arrived hub draws).withServices { hub.world.services with
          skills := finalState (createSkill payload auth hub.world.services.skills) }) := by
  have hhandle : P.handle ⟨.createSkill auth payload, draws⟩ hub =
      (P.createSkill payload auth >>= fun skill => pure (PlatformAnswer.skill skill)) (arrived hub draws) := rfl
  show outcome (P.handle _ hub) = _
  rw [hhandle]
  cases hcreate : createSkill payload auth hub.world.services.skills with
  | ok skill center =>
    have hzoomed : P.createSkill payload auth (arrived hub draws) =
        .ok skill ((arrived hub draws).withServices { hub.world.services with skills := center }) := zoomed_ok hcreate
    rw [bind_ok hzoomed]
    rfl
  | error exc center =>
    have hzoomed : P.createSkill payload auth (arrived hub draws) =
        .error exc ((arrived hub draws).withServices { hub.world.services with skills := center }) := by
      simp only [Platform.createSkill, zoomed, arrived, hcreate]
    rw [bind_error hzoomed]
    rfl

/-- Every answer leaves the hub wired. -/
theorem Wired.respond (hw : Wired hub) (call : PlatformCall) : Wired ((platformApi P).respond hub call).2 := by
  obtain ⟨⟨auth, request⟩ | ⟨auth, payload⟩ | ⟨auth, payload⟩, draws⟩ := call
  · obtain ⟨r, houtcome, hrespond⟩ := run_served hw draws auth request
    rw [hrespond]
    exact houtcome.ran.wired
  · rw [ingest_served]
    exact hw.of_eq rfl rfl rfl
  · rw [skill_served]
    exact hw.of_eq rfl rfl rfl

theorem Wired.after (hw : Wired hub) (calls : List PlatformCall) : Wired ((platformApi P).after hub calls) :=
  (platformApi P).transcript_inv (I := fun hub _ => Wired hub) (C := fun _ => True) hw (fun hw _ => hw.respond _)
    (fun call (_ : call ∈ calls) => trivial)

/-- No request registers a tool. -/
theorem registry_respond (hw : Wired hub) (call : PlatformCall) :
    ((platformApi P).respond hub call).2.registry = hub.registry := by
  obtain ⟨⟨auth, request⟩ | ⟨auth, payload⟩ | ⟨auth, payload⟩, draws⟩ := call
  · obtain ⟨r, houtcome, hrespond⟩ := run_served hw draws auth request
    rw [hrespond]
    exact houtcome.ran.registry
  · rw [ingest_served]
    rfl
  · rw [skill_served]
    rfl

end Served

/-! ## An empty container -/

/-- A container with default settings and no skills. -/
def emptyPlatform : Platform where
  builtins := asciiBuiltins
  int _ := none
  md5 text := text
  shortTurns := 10
  budget := ⟨12000⟩
  prompt := ⟨⟨12000⟩, true⟩
  routing := ⟨"cloud", .empty, [], []⟩
  scans := []
  maxSkillItems := 20
  pipeline := ⟨none⟩
  graph := false

/-- Its services before the first request. -/
def Services.init : Services emptyPlatform.shortTurns where
  short := Dict.empty
  long := { defaultTtlDays := 30 }
  knowledge := .plain
  skills := { storageDir := ["skills"], storage_names := by decide, disk := { entries := Dict.empty.set ["skills"] .directory } }

theorem emptyPlatform_skills : skillsOf emptyPlatform Services.init = .ok [] := by decide +kernel

/-- What a request draws while the audit log can be written. -/
def quietDraws (traceId : String) : Draws where
  traceId
  readAt := 0
  writeAt := 0
  eventId _ := traceId
  fault _ := .none

/-- The hub before the first request. -/
def emptyHub : ToolHub (World emptyPlatform.shortTurns Unit) where
  audit := { uuid4 := World.uuid4, append := World.append }
  world := { services := .init, draws := quietDraws "", tools := () }

/-- A question. -/
def greeting : UnifiedRequest where
  sessionId := "s1"
  input := "good morning"
  input_ne := by decide

/-- A container whose only tool sends emails. -/
def mailingHub : ToolHub (World emptyPlatform.shortTurns Unit) :=
  { emptyHub with registry := Dict.empty.set "send_email" (Tool.onTools sendEmailTool) }

theorem mailingHub_tool {toolName : String} {tool : Tool (World emptyPlatform.shortTurns Unit)}
    (h : mailingHub.registry.get? toolName = some tool) : tool = Tool.onTools sendEmailTool := by
  rw [mailingHub, Dict.get?_set] at h
  split at h
  · exact (Option.some.inj h).symm
  · cases h

theorem mailingHub_wired : Wired mailingHub := by
  refine ⟨rfl, rfl, fun tool htool => ⟨sendEmailTool, ?_⟩⟩
  obtain ⟨toolName, h⟩ := mailingHub.registry.mem_values.1 htool
  exact mailingHub_tool h

theorem mailingHub_apart : ServicesApart mailingHub := by
  intro tool htool params world
  obtain ⟨toolName, h⟩ := mailingHub.registry.mem_values.1 htool
  rw [mailingHub_tool h]
  rfl

end Ochestrate
