import Mathlib.Data.List.Lex
import Mathlib.Data.String.Basic
import Ochestrate.Framework.Along
import Ochestrate.Framework.Glob
import Ochestrate.Schemas.Json

/-!
# The skill center

`app/skills/center.py`: skills are files of a directory and entries of a cache.
A file holds the JSON document of its skill. `int` is the language's `int(text)`
with `none` for a `ValueError`.
-/

namespace Ochestrate

structure SkillSpec where
  skillId : String
  version : String
  name : String
  promptTemplate : String
  config : Dict String Json := .empty
  deriving DecidableEq

/-- `model_dump_json()` -/
def SkillSpec.modelDumpJson (skill : SkillSpec) : Json :=
  .obj [("skill_id", .str skill.skillId), ("version", .str skill.version), ("name", .str skill.name),
    ("prompt_template", .str skill.promptTemplate), ("config", .ofDict skill.config)]

/-- The validation of `SkillSpec(**payload)`. -/
def SkillSpec.ofJson (payload : Json) : Option SkillSpec := do
  return {
    skillId := ← (← payload.field "skill_id").asStr
    version := ← (← payload.field "version").asStr
    name := ← (← payload.field "name").asStr
    promptTemplate := ← (← payload.field "prompt_template").asStr
    config := ← ((payload.field "config").getD (.obj [])).asDict }

@[simp] theorem SkillSpec.ofJson_modelDumpJson (skill : SkillSpec) : ofJson skill.modelDumpJson = some skill := by
  simp [ofJson, modelDumpJson]

/-- `SkillCenter`; the storage directory by its names from the root. -/
structure SkillCenter where
  storageDir : Location
  storage_names : ".." ∉ storageDir
  disk : Disk Json
  cache : Dict String SkillSpec := .empty

namespace SkillCenter

/-- `__init__` -/
def init (storageDir : Location) (h : ".." ∉ storageDir) (disk : Disk Json) : Except Exc SkillCenter :=
  match Disk.makeDirs storageDir disk with
  | .ok _ disk => .ok { storageDir, storage_names := h, disk }
  | .error exc _ => .error exc

/-- The file name of a skill. -/
def fileName (skillId version : String) : String := skillId ++ "_" ++ version ++ ".json"

/-- `_key` -/
def key (skillId version : String) : String := skillId ++ ":" ++ version

/-- `self._storage_dir / name` -/
def target (center : SkillCenter) (name : String) : List String := joinPath center.storageDir name

/-- Runs a program over the disk. -/
def onDisk {α : Type} (x : EStateM Exc (Disk Json) α) : EStateM Exc SkillCenter α :=
  zoomed disk (fun center disk => { center with disk }) x

/-- `SkillSpec(**payload)` -/
def validate (payload : Json) : EStateM Exc SkillCenter SkillSpec :=
  match SkillSpec.ofJson payload with
  | some skill => pure skill
  | none => throw ⟨.valueError, "validation error for SkillSpec"⟩

/-- `SkillSpec(**json.loads(path.read_text()))` -/
def readSkill (path : List String) : EStateM Exc SkillCenter SkillSpec := do
  validate (← onDisk (Disk.readText path))

def cacheSkill (skill : SkillSpec) (skillId version : String) : EStateM Exc SkillCenter PUnit :=
  modify fun center => { center with cache := center.cache.set (key skillId version) skill }

def saveSkill (skill : SkillSpec) : EStateM Exc SkillCenter PUnit := do
  let center ← get
  onDisk (Disk.writeText (center.target (fileName skill.skillId skill.version)) skill.modelDumpJson)
  cacheSkill skill skill.skillId skill.version

def generateSkill (skillId name promptTemplate : String) (config : Option (Dict String Json)) (version : String) :
    EStateM Exc SkillCenter SkillSpec := do
  let skill := { skillId, version, name, promptTemplate, config := config.getD .empty }
  saveSkill skill
  return skill

def loadSkill (skillId version : String) : EStateM Exc SkillCenter SkillSpec := do
  let center ← get
  match center.cache.get? (key skillId version) with
  | some skill => return skill
  | none =>
    let skill ← readSkill (center.target (fileName skillId version))
    cacheSkill skill skillId version
    return skill

/-- `sorted(self._storage_dir.glob(pattern))`, as routes from the directory. -/
def sortedGlob (pattern : String) : EStateM Exc SkillCenter (List (List String)) := fun center =>
  match center.disk.glob center.storageDir pattern with
  | .ok routes => .ok (routes.mergeSort fun route route' => route ≤ route') center
  | .error exc => .error exc center

def latestSkill (skillId : String) : EStateM Exc SkillCenter (Option SkillSpec) := do
  let candidates ← sortedGlob (skillId ++ "_*.json")
  match candidates.getLast? with
  | none => return none
  | some route =>
    let center ← get
    let skill ← readSkill (center.storageDir ++ route)
    return some skill

variable (int : String → Option Int)

/-- `[int(x) for x in version.split(".")]` -/
def versionParts (version : String) : Option (List Int) :=
  ((version.toList.splitOn '.').map String.ofList).mapM int

/-- `_version_gt` -/
def versionGt (new old : String) : Bool :=
  match versionParts int new, versionParts int old with
  | some newParts, some oldParts => oldParts < newParts
  | _, _ => old < new

/-- The body of the loop of `list_latest_skills`. -/
def keepLatest (bySkillId : Dict String SkillSpec) (spec : SkillSpec) : Dict String SkillSpec :=
  match bySkillId.get? spec.skillId with
  | none => bySkillId.set spec.skillId spec
  | some existing =>
    if versionGt int spec.version existing.version then bySkillId.set spec.skillId spec else bySkillId

def listLatestSkills : EStateM Exc SkillCenter (List SkillSpec) := do
  let files ← sortedGlob "*.json"
  let center ← get
  let bySkillId ← files.foldlM (fun bySkillId file => do
    let spec ← readSkill (center.storageDir ++ file)
    return keepLatest int bySkillId spec) .empty
  return bySkillId.values.mergeSort fun skill skill' => skill.skillId ≤ skill'.skillId

/-- The center over a directory that is made on an empty disk. -/
def new (storageDir : Location) (h : ".." ∉ storageDir) (refuses : List String → Bool) : SkillCenter where
  storageDir
  storage_names := h
  disk := {
    entries := Dict.empty.update ((storageDir.inits.filter fun place => place ≠ []).map (·, .directory))
    refuses }

/-- The center of a server that runs in `/app`. -/
def configSkills : SkillCenter := new ["app", "config", "skills"] (by decide) fun _ => false

theorem init_new (storageDir : Location) (h : ".." ∉ storageDir) (refuses : List String → Bool) :
    init storageDir h { refuses } = .ok (new storageDir h refuses) := by
  have hfile : (storageDir.inits.any fun place => (({ refuses } : Disk Json).content? place).isSome) = false := by
    simp [Disk.content?]
  have hdir : ∀ place : Location, (!({ refuses } : Disk Json).isDirectory place) = decide (place ≠ []) := by
    simp [Disk.isDirectory]
  unfold init Disk.makeDirs
  rw [hfile]
  simp only [hdir]
  rfl

/-- Without a separator in its parts, a file name is a single name. -/
theorem plainName_fileName {skillId version : String} (hskill : '/' ∉ skillId.toList) (hversion : '/' ∉ version.toList) :
    PlainName (fileName skillId version) := by
  have htext : (fileName skillId version).toList = skillId.toList ++ '_' :: (version.toList ++ ".json".toList) := by
    simp [fileName]
  have hmem : '_' ∈ (fileName skillId version).toList := by simp [htext]
  refine ⟨?_, ?_, ?_, ?_⟩
  · rw [htext, List.mem_append, List.mem_cons, List.mem_append]
    rintro (h | h | h | h)
    · exact hskill h
    · exact absurd h (by decide)
    · exact hversion h
    · exact absurd h (by decide)
  all_goals
    intro hname
    rw [hname] at hmem
    exact absurd hmem (by decide)

/-! ## What the calls do -/

section Calls

variable (center : SkillCenter)

theorem onDisk_ok {α : Type} {x : EStateM Exc (Disk Json) α} {a : α} {disk : Disk Json}
    (h : x center.disk = .ok a disk) : onDisk x center = .ok a { center with disk } := by
  simp only [onDisk, zoomed, h]

theorem onDisk_error {α : Type} {x : EStateM Exc (Disk Json) α} {exc : Exc} {disk : Disk Json}
    (h : x center.disk = .error exc disk) : onDisk x center = .error exc { center with disk } := by
  simp only [onDisk, zoomed, h]

theorem saveSkill_eq (skill : SkillSpec) :
    saveSkill skill center =
      (onDisk (Disk.writeText (center.target (fileName skill.skillId skill.version)) skill.modelDumpJson) >>= fun _ =>
        cacheSkill skill skill.skillId skill.version) center := by
  rw [saveSkill, get_bind]

theorem loadSkill_cached {skillId version : String} {skill : SkillSpec}
    (h : center.cache.get? (key skillId version) = some skill) : loadSkill skillId version center = .ok skill center := by
  rw [loadSkill, get_bind, h]
  rfl

theorem loadSkill_uncached {skillId version : String} (h : center.cache.get? (key skillId version) = none) :
    loadSkill skillId version center =
      (readSkill (center.target (fileName skillId version)) >>= fun skill =>
        cacheSkill skill skillId version >>= fun _ => pure skill) center := by
  rw [loadSkill, get_bind, h]

theorem readSkill_error {path : List String} {exc : Exc} {disk : Disk Json}
    (h : Disk.readText path center.disk = .error exc disk) : readSkill path center = .error exc { center with disk } := by
  rw [readSkill, bind_error (center.onDisk_error h)]

theorem readSkill_ok {path : List String} {payload : Json} {disk : Disk Json}
    (h : Disk.readText path center.disk = .ok payload disk) :
    readSkill path center = validate payload { center with disk } := by
  rw [readSkill, bind_ok (center.onDisk_ok h)]

end Calls

end SkillCenter

end Ochestrate
