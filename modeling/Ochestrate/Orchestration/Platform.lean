import Ochestrate.Agents.Reviewer
import Ochestrate.Api.Agent
import Ochestrate.Api.Knowledge
import Ochestrate.Api.Skills
import Ochestrate.Context.Budget
import Ochestrate.Memory.LongTerm
import Ochestrate.Models.Clients
import Ochestrate.Prompts.Assembly
import Ochestrate.Rag.Retriever
import Ochestrate.Tools.Office

/-!
# The container's services

The part of `app/core/dependencies.py` that gives the orchestrator its
collaborators: retriever, reviewer, model router, memory, context manager,
prompt assembly and skill context, over one state. Tools act on the disk, where
the skills are too, and on the rest of the world, of any type.

The repositories are the in-memory ones only, so knowledge is a list of chunks.
What a request draws from its surroundings (ids, times, failures of the audit log)
comes with the request.
-/

namespace Ochestrate

/-- The settings that the services are built with. -/
structure Platform where
  builtins : Builtins
  /-- `int(text)` -/
  int : String → Option Int
  md5 : String → String
  shortTurns : Nat
  budget : TokenBudgetManager
  prompt : PromptAssemblyService
  routing : RouterSettings
  /-- The `SKILL.md` files of each scan directory. -/
  scans : List (List SkillFile)
  maxSkillItems : Int
  pipeline : IngestionPipeline
  graph : Bool

/-- What a request draws. -/
structure Draws where
  traceId : String
  /-- The times when the long-term memory is read and written. -/
  readAt : Time
  writeAt : Time
  /-- The ids of its audit events, and how writing them goes. -/
  eventId : Nat → String
  fault : Nat → Fault Exc

/-- What the services keep. -/
structure Services (shortTurns : Nat) where
  short : ShortTermMemoryStore.State shortTurns
  long : LongTermMemoryStore
  knowledge : KnowledgeStore
  skills : SkillCenter

/-- The world outside the hub; `υ` is what tools act on besides the disk. -/
structure World (shortTurns : Nat) (υ : Type) where
  services : Services shortTurns
  draws : Draws
  /-- How many events the request has recorded. -/
  recorded : Nat := 0
  tools : υ

/-- The services once the disk has changed. -/
def Services.withDisk {shortTurns : Nat} (services : Services shortTurns) (disk : Disk Json) : Services shortTurns :=
  { services with skills := { services.skills with disk } }

/-- A tool that acts on the disk and on its part of the world. -/
def Tool.onTools {shortTurns : Nat} {υ : Type} (tool : Tool (Disk Json × υ)) : Tool (World shortTurns υ) where
  name := tool.name
  description := tool.description
  requiredRoles := tool.requiredRoles
  idempotent := tool.idempotent
  run params := zoomed (fun world => (world.services.skills.disk, world.tools))
    (fun world (disk, tools) => { world with services := world.services.withDisk disk, tools }) (tool.run params)

namespace World

variable {shortTurns : Nat} {υ : Type}

/-- The id of the next audit event. -/
def eventId (world : World shortTurns υ) : String := world.draws.eventId world.recorded

/-- How writing the next audit event goes. -/
def fault (world : World shortTurns υ) : Fault Exc := world.draws.fault world.recorded

/-- One event more has been recorded, or should have been. -/
def next (world : World shortTurns υ) : World shortTurns υ := { world with recorded := world.recorded + 1 }

/-- `str(uuid.uuid4())` of an audit event. -/
def uuid4 : EStateM Exc (World shortTurns υ) String := fun world => .ok world.eventId world

/-- Writing a line of the audit log. -/
def append : EStateM Exc (World shortTurns υ) (Fault Exc) := fun world => .ok world.fault world.next

end World

/-- An entry of `list_capabilities` as the prompt assembly reads it. -/
def Capability.toDict (capability : Capability) : Dict String Json :=
  Dict.empty.update [("name", .str capability.name), ("description", .str capability.description),
    ("required_roles", .arr (capability.requiredRoles.map .str)), ("idempotent", .bool capability.idempotent)]

/-- The fields that the orchestrator passes to the prompt assembly. -/
def PromptAssemblyInput.toService (data : PromptAssemblyInput) : PromptAssemblyService.PromptAssemblyInput where
  systemPolicy := data.systemPolicy
  task := data.task
  evidence := data.evidence
  shortMemory := data.shortMemory
  longMemory := data.longMemory
  tools := data.tools.map Capability.toDict
  skills := data.skills
  maxSkillItems := data.maxSkillItems
  skillContextMode := data.skillContextMode.value

namespace Platform

variable (P : Platform) {υ : Type}

/-- `skill_context.load()`. It changes nothing but the history of the files that
were opened (`load_sameFiles`), which is not kept here. -/
def loadSkills : EStateM Exc (World P.shortTurns υ) (List SkillContextItem) := fun world =>
  match SkillContextService.load P.builtins P.int P.scans world.services.skills with
  | .ok items _ => .ok items world
  | .error exc _ => .error exc world

/-- `memory.write_short` -/
def writeShort (tenantId userId sessionId content : String) : EStateM Exc (World P.shortTurns υ) MemoryUpdate :=
  fun world =>
    let (short, update) := MemoryService.writeShort world.services.short ⟨tenantId, userId, sessionId⟩ content
    .ok update { world with services := { world.services with short } }

/-- `memory.write_long` -/
def writeLong (tenantId userId content : String) (tags : List String) :
    EStateM Exc (World P.shortTurns υ) MemoryUpdate := fun world =>
  let (long, update) := MemoryService.writeLong world.services.long world.draws.writeAt tenantId userId content (some tags)
  .ok update { world with services := { world.services with long } }

/-- The orchestrator's collaborators. -/
def collaborators : Collaborators (World P.shortTurns υ) where
  retrieve request := do
    return RetrieverAgent.retrieve P.builtins.lower (← get).services.knowledge request
  review answer citations actionsCount := return ReviewerAgent.review answer citations actionsCount
  generate prompt taskType sensitivity :=
    (ModelRouter.init P.builtins P.routing _).generate prompt taskType.value sensitivity.value
  readShort tenantId userId sessionId := do
    return MemoryService.readShort (← get).services.short ⟨tenantId, userId, sessionId⟩
  readLong tenantId userId query := do
    let world ← get
    return MemoryService.readLong P.builtins.lower world.services.long world.draws.readAt tenantId userId query
  writeShort := P.writeShort
  writeLong := P.writeLong
  assemble data := return PromptAssemblyService.assemble P.builtins P.prompt data.toService
  buildContext layers := return ContextManager.buildContext P.budget layers
  loadSkills := P.loadSkills
  newTraceId := do return (← get).draws.traceId
  maxSkillItems := P.maxSkillItems

end Platform

/-! ## Loading skills -/

/-- Nothing but the history of the files that were opened is different. -/
def SameFiles (center center' : SkillCenter) : Prop :=
  ∃ opened, center' = { center with disk := { center.disk with opened } }

namespace SameFiles

theorem refl (center : SkillCenter) : SameFiles center center := ⟨center.disk.opened, rfl⟩

theorem trans {center center' center'' : SkillCenter} (h : SameFiles center center') (h' : SameFiles center' center'') :
    SameFiles center center'' := by
  obtain ⟨opened, rfl⟩ := h
  obtain ⟨opened', rfl⟩ := h'
  exact ⟨opened', rfl⟩

theorem bind {α β : Type} {x : EStateM Exc SkillCenter α} {f : α → EStateM Exc SkillCenter β}
    (h : Along SameFiles x fun _ => True) (hf : ∀ a, Along SameFiles (f a) fun _ => True) :
    Along SameFiles (x >>= f) (fun _ => True) :=
  Along.bind (R := SameFiles) (fun _ _ _ => trans) h fun a _ => hf a

theorem readText (path : List String) :
    Along SameFiles (SkillCenter.onDisk (Disk.readText path)) (fun _ => True) := by
  refine Along.of_finalState fun center => ?_
  unfold SkillCenter.onDisk zoomed Disk.readText
  split
  · next content disk hread =>
    split at hread
    · cases hread
    · split at hread
      · cases hread
      · split at hread
        · cases hread
        · cases hread
          exact ⟨_, rfl⟩
  · next exc disk hread =>
    split at hread
    · cases hread
      exact refl center
    · split at hread
      · cases hread
        exact refl center
      · split at hread
        · cases hread
          exact refl center
        · cases hread

theorem readSkill (path : List String) : Along SameFiles (SkillCenter.readSkill path) (fun _ => True) := by
  refine bind (readText path) fun payload => ?_
  unfold SkillCenter.validate
  split
  · exact Along.pure refl trivial
  · exact Along.throw refl _

theorem sortedGlob (pattern : String) : Along SameFiles (SkillCenter.sortedGlob pattern) (fun _ => True) := by
  refine Along.of_finalState fun center => ?_
  unfold SkillCenter.sortedGlob
  split
  · exact refl center
  · exact refl center

/-- The loop over the files that are left. -/
theorem readSkills (int : String → Option Int) (center : SkillCenter) (files : List (List String))
    (bySkillId : Dict String SkillSpec) :
    Along SameFiles (files.foldlM (fun bySkillId file => do
      let spec ← SkillCenter.readSkill (center.storageDir ++ file)
      return SkillCenter.keepLatest int bySkillId spec) bySkillId) (fun _ => True) := by
  induction files generalizing bySkillId with
  | nil => exact Along.pure refl trivial
  | cons file files ih =>
    rw [List.foldlM_cons, bind_assoc]
    exact bind (readSkill _) fun spec => ih _

end SameFiles

theorem listLatestSkills_sameFiles (int : String → Option Int) :
    Along SameFiles (SkillCenter.listLatestSkills int) (fun _ => True) := by
  refine SameFiles.bind (SameFiles.sortedGlob _) fun files => ?_
  refine SameFiles.bind (Along.get .refl) fun center => ?_
  exact SameFiles.bind (SameFiles.readSkills int center files _) fun _ => Along.pure .refl trivial

/-- Loading the skills changes neither the files nor the cache. -/
theorem load_sameFiles (B : Builtins) (int : String → Option Int) (scans : List (List SkillFile)) :
    Along SameFiles (SkillContextService.load B int scans) (fun _ => True) := by
  refine SameFiles.bind ?_ fun _ => Along.pure .refl trivial
  refine SameFiles.bind (listLatestSkills_sameFiles int) fun _ => ?_
  exact SameFiles.bind (Along.get .refl) fun _ => Along.pure .refl trivial

end Ochestrate
