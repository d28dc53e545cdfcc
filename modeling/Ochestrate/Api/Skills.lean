import Ochestrate.Api.Errors
import Ochestrate.Api.RequestContext
import Ochestrate.Skills.Center

/-!
# Skill endpoints

`app/api/v1/skills.py`. The file name of a skill is made of two strings of the
client. `POST /skills` takes any strings, so the file may lie outside the
storage directory: `skills_confined_iff` says when it does not. The path
parameters of `GET /skills/{skill_id}/{version}` contain no separator, and what
it reads lies inside.
-/

namespace Ochestrate

structure CreateSkillRequest where
  skillId : String
  version : String := "1.0.0"
  name : String
  promptTemplate : String
  config : Dict String Json := .empty
  deriving DecidableEq

/-- `POST /skills` -/
def createSkill (payload : CreateSkillRequest) (_auth : AuthContext) : EStateM HttpError SkillCenter SkillSpec :=
  answering (fun _ => internalServerError)
    (SkillCenter.generateSkill payload.skillId payload.name payload.promptTemplate (some payload.config) payload.version)

/-- The response to an exception of `load_skill`. -/
def skillError (exc : Exc) : HttpError :=
  match exc.type with
  | .fileNotFoundError => ⟨404, exc.message⟩
  | _ => internalServerError

/-- `GET /skills/{skill_id}/{version}` -/
def getSkill (skillId version : String) (_auth : AuthContext) : EStateM HttpError SkillCenter SkillSpec :=
  answering skillError (SkillCenter.loadSkill skillId version)

/-- A text that the router takes for a path parameter. -/
def RouteParameter (text : String) : Prop := text ≠ "" ∧ '/' ∉ text.toList

/-- Every file that was opened between two states lies inside the storage
directory. -/
def OpensInside (center center' : SkillCenter) : Prop :=
  ∃ places, center'.disk.opened = center.disk.opened ++ places ∧ ∀ place ∈ places, Inside center.storageDir place

namespace SkillCenter

variable (center : SkillCenter)

/-- The paths that a call to save the skill opens. -/
theorem opened_saveSkill (skill : SkillSpec) :
    (finalState (saveSkill skill center)).disk.opened = center.disk.opened ++
      if center.disk.canWrite (center.target (fileName skill.skillId skill.version)) then
        [normalise (center.target (fileName skill.skillId skill.version))]
      else [] := by
  rw [← Disk.opened_writeText _ skill.modelDumpJson, saveSkill_eq]
  cases hwrite : Disk.writeText (center.target (fileName skill.skillId skill.version)) skill.modelDumpJson
    center.disk with
  | error exc disk => rw [bind_error (center.onDisk_error hwrite)]; rfl
  | ok _ disk => rw [bind_ok (center.onDisk_ok hwrite)]; rfl

theorem opened_generateSkill (skillId name promptTemplate : String) (config : Option (Dict String Json))
    (version : String) :
    (finalState (generateSkill skillId name promptTemplate config version center)).disk.opened =
      center.disk.opened ++
        if center.disk.canWrite (center.target (fileName skillId version)) then
          [normalise (center.target (fileName skillId version))]
        else [] := by
  rw [← center.opened_saveSkill ⟨skillId, version, name, promptTemplate, config.getD .empty⟩]
  unfold generateSkill
  cases hsave : saveSkill ⟨skillId, version, name, promptTemplate, config.getD .empty⟩ center with
  | error exc center' => rw [bind_error hsave]; rfl
  | ok _ center' => rw [bind_ok hsave]; rfl

/-- A file is read when the skill is not in the cache. -/
theorem opened_loadSkill (skillId version : String) :
    (finalState (loadSkill skillId version center)).disk.opened = center.disk.opened ++
      if (center.cache.get? (key skillId version)).isNone &&
          center.disk.canRead (center.target (fileName skillId version)) then
        [normalise (center.target (fileName skillId version))]
      else [] := by
  cases hcache : center.cache.get? (key skillId version) with
  | some skill => simp [center.loadSkill_cached hcache]
  | none =>
    rw [center.loadSkill_uncached hcache, Option.isNone_none, Bool.true_and, ← Disk.opened_readText]
    cases hread : Disk.readText (center.target (fileName skillId version)) center.disk with
    | error exc disk => rw [bind_error (center.readSkill_error hread)]; rfl
    | ok payload disk =>
      have hskill := center.readSkill_ok hread
      unfold validate at hskill
      cases hspec : SkillSpec.ofJson payload with
      | none => rw [hspec] at hskill; rw [bind_error hskill]; rfl
      | some skill => rw [hspec] at hskill; rw [bind_ok hskill]; rfl

end SkillCenter

/-- Opening one place is confined exactly if the place is inside. -/
theorem opensInside_iff {center center' : SkillCenter} {opens : Bool} {place : Location}
    (h : center'.disk.opened = center.disk.opened ++ if opens then [place] else []) :
    OpensInside center center' ↔ Inside center.storageDir place ∨ opens = false := by
  constructor
  · rintro ⟨places, hplaces, hinside⟩
    rw [hplaces, List.append_cancel_left_eq] at h
    cases opens with
    | false => exact .inr rfl
    | true => exact .inl (hinside place (by rw [h]; exact List.mem_singleton_self place))
  · intro hinside
    refine ⟨_, h, fun place' hmem => ?_⟩
    cases opens with
    | false => cases hmem
    | true =>
      rw [List.mem_singleton.1 hmem]
      exact hinside.resolve_right (by decide)

/-- What a request reads over its two path parameters lies inside. -/
theorem getSkill_inside (center : SkillCenter) (auth : AuthContext) {skillId version : String}
    (hskill : RouteParameter skillId) (hversion : RouteParameter version) :
    OpensInside center (finalState (getSkill skillId version auth center)) := by
  rw [getSkill, finalState_answering]
  refine (opensInside_iff (center.opened_loadSkill skillId version)).2 (.inl ?_)
  rw [SkillCenter.target, inside_normalise_iff center.storage_names]
  exact (SkillCenter.plainName_fileName hskill.2 hversion.2).stays center.storage_names

/-- A request creates its skill inside the storage directory exactly if the path
stays there or cannot be opened; what is read over the API always lies inside. -/
theorem skills_confined_iff (center : SkillCenter) (auth : AuthContext) (payload : CreateSkillRequest) :
    (OpensInside center (finalState (createSkill payload auth center)) ∧
        ∀ skillId version, RouteParameter skillId → RouteParameter version →
          OpensInside center (finalState (getSkill skillId version auth center))) ↔
      Stays center.storageDir (SkillCenter.fileName payload.skillId payload.version) ∨
        center.disk.canWrite (center.target (SkillCenter.fileName payload.skillId payload.version)) = false := by
  rw [createSkill, finalState_answering, opensInside_iff (center.opened_generateSkill ..), SkillCenter.target,
    inside_normalise_iff center.storage_names]
  constructor
  · exact fun h => h.1
  · intro h
    exact ⟨h, fun _ _ hskill hversion => getSkill_inside center auth hskill hversion⟩

/-- A skill id that leads out of `config/skills`. -/
def escapingSkill : CreateSkillRequest where
  skillId := "../evil"
  name := "evil"
  promptTemplate := "Answer with citations."

/-- `POST /skills` writes `/app/config/evil_1.0.0.json`. -/
theorem escapingSkill_escapes :
    ¬ OpensInside SkillCenter.configSkills
      (finalState (createSkill escapingSkill someCaller SkillCenter.configSkills)) := by
  rintro ⟨places, hopened, hinside⟩
  have hescapes : (finalState (createSkill escapingSkill someCaller SkillCenter.configSkills)).disk.opened =
      [["app", "config", "evil_1.0.0.json"]] := by
    decide +kernel
  have hnone : SkillCenter.configSkills.disk.opened = [] := rfl
  rw [hescapes, hnone, List.nil_append] at hopened
  have hevil := hinside ["app", "config", "evil_1.0.0.json"] (by rw [← hopened]; exact List.mem_singleton_self _)
  exact absurd hevil (by decide)

end Ochestrate
