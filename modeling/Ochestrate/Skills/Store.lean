import Ochestrate.Framework.Candidate
import Ochestrate.Skills.Center

/-!
# The skill center as a map

Saved skills are found again by `skill_id:version` in the cache of the center
that saved them, and by the file name `skill_id_version.json` on the disk.
Neither text determines its pair. `Mirrors` says what the two hold after any
saves whose names have no separator: the skill that was saved last under each
text (`Mirrors.saveAll`). `findsLast_iff` says for which pairs that is the skill
saved last under the pair itself.
-/

namespace Ochestrate

namespace SkillCenter

/-- Saves the skills one after the other; a save that raises is not heeded. -/
def saveAll (skills : List SkillSpec) (center : SkillCenter) : SkillCenter :=
  skills.foldl (fun center skill => finalState (saveSkill skill center)) center

/-- The skills whose saves returned. -/
def returnedSaves : List SkillSpec → SkillCenter → List SkillSpec
  | [], _ => []
  | skill :: skills, center =>
    (if returned (saveSkill skill center) then [skill] else []) ++
      returnedSaves skills (finalState (saveSkill skill center))

/-- `SkillCenter(self.storage_dir)` -/
def restart (center : SkillCenter) : Except Exc SkillCenter := init center.storageDir center.storage_names center.disk

/-- No part of the skill's file name has a separator. -/
def SeparatorFree (skillId version : String) : Prop := '/' ∉ skillId.toList ∧ '/' ∉ version.toList

/-- The system takes the file name of the skill. -/
def accepts (center : SkillCenter) (skillId version : String) : Bool :=
  !center.disk.refuses (center.storageDir ++ [fileName skillId version])

/-- The directory holds what was saved last under each file name. -/
structure Stored (center : SkillCenter) (saved : List SkillSpec) : Prop where
  ready : center.disk.Ready center.storageDir
  file : ∀ name, center.disk.isDirectory (center.storageDir ++ [name]) = false
  content : ∀ name, center.disk.content? (center.storageDir ++ [name]) =
    (lastWhere (fun skill => fileName skill.skillId skill.version = name) saved).map (·.modelDumpJson)

/-- So does the directory, and the cache holds what was saved last under each
key. -/
structure Mirrors (center : SkillCenter) (saved : List SkillSpec) : Prop extends Stored center saved where
  cached : ∀ text, center.cache.get? text = lastWhere (fun skill => key skill.skillId skill.version = text) saved

variable {center : SkillCenter} {saved : List SkillSpec}

theorem target_of_separatorFree (center : SkillCenter) {skillId version : String} (h : SeparatorFree skillId version) :
    center.target (fileName skillId version) = center.storageDir ++ [fileName skillId version] :=
  (plainName_fileName h.1 h.2).joinPath center.storageDir

/-- A save writes the file and the cache, or the name is refused. -/
theorem Mirrors.saveSkill (h : Mirrors center saved) {skill : SkillSpec}
    (hskill : SeparatorFree skill.skillId skill.version) :
    returned (SkillCenter.saveSkill skill center) = center.accepts skill.skillId skill.version ∧
      finalState (SkillCenter.saveSkill skill center) =
        if center.accepts skill.skillId skill.version then
          { center with
            disk := center.disk.put (center.storageDir ++ [fileName skill.skillId skill.version]) skill.modelDumpJson
            cache := center.cache.set (key skill.skillId skill.version) skill }
        else center := by
  have hname := (plainName_fileName hskill.1 hskill.2).ne_up
  have hwrite := h.ready.writeText hname (h.file _) skill.modelDumpJson
  rw [saveSkill_eq, target_of_separatorFree center hskill]
  unfold accepts
  cases hrefuses : center.disk.refuses (center.storageDir ++ [fileName skill.skillId skill.version]) with
  | true =>
    rw [hrefuses, if_pos rfl] at hwrite
    rw [bind_error (center.onDisk_error hwrite)]
    exact ⟨rfl, rfl⟩
  | false =>
    rw [hrefuses, if_neg Bool.false_ne_true] at hwrite
    rw [bind_ok (center.onDisk_ok hwrite)]
    exact ⟨rfl, rfl⟩

/-- What holds after one more save. -/
theorem Mirrors.step (h : Mirrors center saved) {skill : SkillSpec}
    (hskill : SeparatorFree skill.skillId skill.version) :
    Mirrors (finalState (SkillCenter.saveSkill skill center))
      (saved ++ if center.accepts skill.skillId skill.version then [skill] else []) := by
  rw [(h.saveSkill hskill).2]
  cases center.accepts skill.skillId skill.version with
  | false => rw [if_neg Bool.false_ne_true, if_neg Bool.false_ne_true, List.append_nil]; exact h
  | true =>
    rw [if_pos rfl, if_pos rfl]
    refine ⟨⟨h.ready.put _ _, fun name => ?_, fun name => ?_⟩, fun text => ?_⟩
    · rw [Disk.isDirectory_put, h.file, ite_self]
    · rw [Disk.content?_put, h.content, lastWhere_concat]
      by_cases hname : fileName skill.skillId skill.version = name
      · simp [hname]
      · simp [hname, Ne.symm hname]
    · rw [Dict.get?_set, h.cached, lastWhere_concat]
      by_cases htext : key skill.skillId skill.version = text
      · simp [htext]
      · simp [htext, Ne.symm htext]

/-- A save does not move the directory, and the system takes the same names as
before. -/
theorem Mirrors.saveSkill_keeps (h : Mirrors center saved) {skill : SkillSpec}
    (hskill : SeparatorFree skill.skillId skill.version) :
    (finalState (SkillCenter.saveSkill skill center)).storageDir = center.storageDir ∧
      (finalState (SkillCenter.saveSkill skill center)).accepts = center.accepts := by
  rw [(h.saveSkill hskill).2]
  split <;> exact ⟨rfl, rfl⟩

/-- What holds after any saves: those that were refused left nothing. -/
theorem Mirrors.saveAll (h : Mirrors center saved) {skills : List SkillSpec}
    (hskills : ∀ skill ∈ skills, SeparatorFree skill.skillId skill.version) :
    Mirrors (saveAll skills center) (saved ++ returnedSaves skills center) ∧
      returnedSaves skills center = (skills.filter fun skill => center.accepts skill.skillId skill.version) ∧
      (saveAll skills center).storageDir = center.storageDir ∧
      (saveAll skills center).accepts = center.accepts := by
  induction skills generalizing center saved with
  | nil => exact ⟨by simpa [SkillCenter.saveAll, returnedSaves] using h, rfl, rfl, rfl⟩
  | cons skill skills ih =>
    have hskill := hskills skill (List.mem_cons_self ..)
    obtain ⟨hdir, haccepts⟩ := h.saveSkill_keeps hskill
    obtain ⟨hrest, hreturned, hdir', haccepts'⟩ :=
      ih (h.step hskill) fun skill' hmem => hskills skill' (List.mem_cons_of_mem _ hmem)
    rw [haccepts] at hreturned haccepts'
    have hcons : returnedSaves (skill :: skills) center =
        (if center.accepts skill.skillId skill.version then [skill] else []) ++
          returnedSaves skills (finalState (SkillCenter.saveSkill skill center)) := by
      rw [returnedSaves, (h.saveSkill hskill).1]
    refine ⟨?_, ?_, hdir'.trans hdir, haccepts'⟩
    · rw [hcons, ← List.append_assoc]
      exact hrest
    · rw [hcons, hreturned, List.filter_cons]
      split <;> rfl

/-- A new center over the same directory has the same files and no cache. -/
theorem Stored.restart (h : Stored center saved) : center.restart = .ok { center with cache := .empty } := by
  have hdirs : (center.storageDir.inits.filter fun place => !center.disk.isDirectory place) = [] := by
    rw [List.filter_eq_nil_iff]
    intro place hmem
    rw [h.ready.2 place ((List.mem_inits _ _).1 hmem)]
    decide
  have hfiles : (center.storageDir.inits.any fun place => (center.disk.content? place).isSome) = false := by
    rw [List.any_eq_false]
    intro place hmem
    have hdir := h.ready.2 place ((List.mem_inits _ _).1 hmem)
    unfold Disk.isDirectory at hdir
    unfold Disk.content?
    split
    · next hentry => rw [hentry] at hdir; cases hdir
    · decide
  rw [SkillCenter.restart, init, Disk.makeDirs, hfiles, hdirs]
  rfl

/-- A directory that was just made is ready. -/
theorem new_mirrors (storageDir : Location) (h : ".." ∉ storageDir) (refuses : List String → Bool) :
    Mirrors (new storageDir h refuses) [] := by
  have hentry : ∀ place, (new storageDir h refuses).disk.entries.get? place =
      if place <+: storageDir ∧ place ≠ [] then some .directory else none := by
    intro place
    change (Dict.empty.update _).get? place = _
    rw [Dict.get?_update_map, Dict.get?_empty]
    simp
  have hdir : ∀ place, place <+: storageDir → (new storageDir h refuses).disk.isDirectory place = true := by
    intro place hprefix
    rw [Disk.isDirectory, hentry]
    by_cases hroot : place = []
    · simp [hroot]
    · simp [hroot, hprefix]
  have hbelow : ∀ name, (new storageDir h refuses).disk.entries.get? (storageDir ++ [name]) = none := by
    intro name
    rw [hentry, if_neg]
    intro hplace
    have hle := hplace.1.length_le
    rw [List.length_append, List.length_singleton] at hle
    omega
  have hfile : ∀ name, (new storageDir h refuses).disk.isDirectory (storageDir ++ [name]) = false := by
    intro name
    rw [Disk.isDirectory, hbelow]
    simp
  have hcontent : ∀ name, (new storageDir h refuses).disk.content? (storageDir ++ [name]) = none := by
    intro name
    rw [Disk.content?, hbelow]
  exact ⟨⟨⟨h, hdir⟩, hfile, hcontent⟩, fun text => rfl⟩

/-! ## Reading a skill back -/

/-- What `load_skill` gives: the skill, or `FileNotFoundError`. -/
def Loads (center : SkillCenter) (skillId version : String) (expected : Option SkillSpec) : Prop :=
  match expected, loadSkill skillId version center with
  | some skill, .ok loaded _ => loaded = skill
  | none, .error exc _ => exc.type = .fileNotFoundError
  | _, _ => False

theorem loads_some_iff {skillId version : String} {skill : SkillSpec} {center' : SkillCenter} {expected : Option SkillSpec}
    (h : loadSkill skillId version center = .ok skill center') :
    Loads center skillId version expected ↔ expected = some skill := by
  unfold Loads
  rw [h]
  cases expected with
  | none => simp
  | some expected => simp [eq_comm]

theorem loads_none_iff {skillId version : String} {exc : Exc} {center' : SkillCenter} {expected : Option SkillSpec}
    (h : loadSkill skillId version center = .error exc center') :
    Loads center skillId version expected ↔ expected = none ∧ exc.type = .fileNotFoundError := by
  unfold Loads
  rw [h]
  cases expected <;> simp

/-- The file of a name that the system takes is read as the skill that was saved
last under the name. -/
theorem Stored.readSkill (h : Stored center saved) {skillId version : String} (hname : SeparatorFree skillId version)
    (haccepts : center.accepts skillId version = true) {skill : SkillSpec}
    (hlast : lastWhere (fun skill => fileName skill.skillId skill.version = fileName skillId version) saved = some skill) :
    ∃ opened, SkillCenter.readSkill (center.storageDir ++ [fileName skillId version]) center =
      .ok skill { center with disk := { center.disk with opened } } := by
  have hup := (plainName_fileName hname.1 hname.2).ne_up
  have hread := h.ready.readText hup (h.file _)
  have hrefuses : center.disk.refuses (center.storageDir ++ [fileName skillId version]) = false := by
    simpa [accepts] using haccepts
  rw [hrefuses, if_neg Bool.false_ne_true, h.content, hlast] at hread
  have hskill := center.readSkill_ok hread
  simp only [validate, SkillSpec.ofJson_modelDumpJson] at hskill
  exact ⟨_, hskill⟩

/-- A name under which nothing was saved is not found, if the system takes it. -/
theorem Stored.readSkill_error (h : Stored center saved) {skillId version : String}
    (hname : SeparatorFree skillId version)
    (hlast : lastWhere (fun skill => fileName skill.skillId skill.version = fileName skillId version) saved = none ∨
      center.accepts skillId version = false) :
    ∃ exc, SkillCenter.readSkill (center.storageDir ++ [fileName skillId version]) center = .error exc center ∧
      (exc.type = .fileNotFoundError ↔ center.accepts skillId version = true) := by
  have hup := (plainName_fileName hname.1 hname.2).ne_up
  have hread := h.ready.readText hup (h.file _)
  unfold accepts at hlast ⊢
  rw [h.content] at hread
  cases hrefuses : center.disk.refuses (center.storageDir ++ [fileName skillId version]) with
  | true =>
    rw [hrefuses, if_pos rfl] at hread
    exact ⟨_, center.readSkill_error hread, by simp [OpenError.exc]⟩
  | false =>
    rw [hrefuses] at hlast
    rw [hrefuses, if_neg Bool.false_ne_true, hlast.resolve_right (by decide)] at hread
    exact ⟨_, center.readSkill_error hread, by simp [OpenError.exc]⟩

/-- Reading the file of a name that is not in the cache. -/
theorem Stored.loads_uncached (h : Stored center saved) {skillId version : String}
    (hname : SeparatorFree skillId version) (hcache : center.cache.get? (key skillId version) = none)
    (expected : Option SkillSpec) :
    Loads center skillId version expected ↔
      center.accepts skillId version = true ∧
        expected = lastWhere (fun skill => fileName skill.skillId skill.version = fileName skillId version) saved := by
  have hload := center.loadSkill_uncached hcache
  rw [target_of_separatorFree center hname] at hload
  cases haccepts : center.accepts skillId version with
  | false =>
    obtain ⟨exc, hread, htype⟩ := h.readSkill_error hname (.inr haccepts)
    rw [bind_error hread] at hload
    rw [loads_none_iff hload, htype, haccepts]
    simp
  | true =>
    cases hlast : lastWhere (fun skill => fileName skill.skillId skill.version = fileName skillId version) saved with
    | none =>
      obtain ⟨exc, hread, htype⟩ := h.readSkill_error hname (.inl hlast)
      rw [bind_error hread] at hload
      rw [loads_none_iff hload, htype, haccepts]
      simp
    | some skill =>
      obtain ⟨opened, hread⟩ := h.readSkill hname haccepts hlast
      rw [bind_ok hread] at hload
      rw [loads_some_iff hload]
      simp

/-! ## The store as a map -/

/-- The skill that was saved last under the pair. -/
def lastSaved (skillId version : String) (saved : List SkillSpec) : Option SkillSpec :=
  lastWhere (fun skill => skill.skillId = skillId ∧ skill.version = version) saved

/-- The last skill under the text of the pair is one of the pair itself. -/
def Unshadowed (text : String → String → String) (skillId version : String) (saved : List SkillSpec) : Prop :=
  ∀ skill, lastWhere (fun skill => text skill.skillId skill.version = text skillId version) saved = some skill →
    skill.skillId = skillId ∧ skill.version = version

/-- Nothing is saved under a pair when nothing is under its text. -/
theorem lastSaved_eq_none {text : String → String → String} {skillId version : String} {saved : List SkillSpec}
    (h : lastWhere (fun skill => text skill.skillId skill.version = text skillId version) saved = none) :
    lastSaved skillId version saved = none := by
  rw [lastWhere_eq_none] at h
  refine lastWhere_eq_none.2 fun skill hmem => ?_
  have htext := of_decide_eq_false (h skill hmem)
  rw [decide_eq_false_iff_not]
  rintro ⟨rfl, rfl⟩
  exact htext rfl

theorem unshadowed_iff {text : String → String → String} {skillId version : String} {saved : List SkillSpec} :
    Unshadowed text skillId version saved ↔
      lastSaved skillId version saved =
        lastWhere (fun skill => text skill.skillId skill.version = text skillId version) saved := by
  have hpair : ∀ skill : SkillSpec, decide (skill.skillId = skillId ∧ skill.version = version) = true →
      decide (text skill.skillId skill.version = text skillId version) = true := by
    intro skill h
    obtain ⟨rfl, rfl⟩ := of_decide_eq_true h
    exact decide_eq_true rfl
  constructor
  · intro h
    cases hlast : lastWhere (fun skill => text skill.skillId skill.version = text skillId version) saved with
    | none => exact lastSaved_eq_none hlast
    | some skill => exact lastWhere_of_imp hpair hlast (decide_eq_true (h skill hlast))
  · intro h skill hlast
    rw [hlast] at h
    exact of_decide_eq_true (lastWhere_some h).1

/-- A new center finds the last save of a pair exactly if the system takes the
file name and no other pair was saved under it since. -/
theorem Stored.loads_cold_iff (h : Stored center saved) {skillId version : String}
    (hname : SeparatorFree skillId version) :
    (∃ cold, center.restart = .ok cold ∧ Loads cold skillId version (lastSaved skillId version saved)) ↔
      center.accepts skillId version = true ∧ Unshadowed fileName skillId version saved := by
  have hcold : Stored { center with cache := .empty } saved := ⟨h.ready, h.file, h.content⟩
  have hloads := hcold.loads_uncached hname rfl (lastSaved skillId version saved)
  rw [unshadowed_iff, h.restart]
  constructor
  · rintro ⟨cold, hrestart, hcold⟩
    rw [← Except.ok.inj hrestart] at hcold
    exact hloads.1 hcold
  · exact fun h => ⟨_, rfl, hloads.2 h⟩

/-- So does the center itself, if in addition no other pair was saved under the
key since. -/
theorem Mirrors.loads_warm_iff (h : Mirrors center saved) {skillId version : String}
    (hname : SeparatorFree skillId version) (haccepts : center.accepts skillId version = true)
    (hfile : Unshadowed fileName skillId version saved) :
    Loads center skillId version (lastSaved skillId version saved) ↔ Unshadowed key skillId version saved := by
  have hcache := h.cached (key skillId version)
  rw [unshadowed_iff]
  cases hlast : lastWhere (fun skill => key skill.skillId skill.version = key skillId version) saved with
  | some skill =>
    rw [hlast] at hcache
    exact loads_some_iff (center.loadSkill_cached hcache)
  | none =>
    rw [hlast] at hcache
    have hnone := lastSaved_eq_none hlast
    have hloads := h.loads_uncached hname hcache (lastSaved skillId version saved)
    exact ⟨fun _ => hnone, fun _ => hloads.2 ⟨haccepts, unshadowed_iff.1 hfile⟩⟩

/-- After the saves, the center and a new one over its directory both find what
was saved last under the pair. -/
def FindsLast (skills : List SkillSpec) (center : SkillCenter) (skillId version : String) : Prop :=
  Loads (saveAll skills center) skillId version (lastSaved skillId version (returnedSaves skills center)) ∧
    ∃ cold, (saveAll skills center).restart = .ok cold ∧
      Loads cold skillId version (lastSaved skillId version (returnedSaves skills center))

/-- The skill that was saved last under a pair is found exactly if the last
accepted skill with its file name and the last one with its key are skills of the
pair itself, and the system takes the file name. -/
theorem findsLast_iff {storageDir : Location} (h : ".." ∉ storageDir) (refuses : List String → Bool)
    {skills : List SkillSpec} (hskills : ∀ skill ∈ skills, SeparatorFree skill.skillId skill.version)
    {skillId version : String} (hname : SeparatorFree skillId version) :
    FindsLast skills (new storageDir h refuses) skillId version ↔
      (new storageDir h refuses).accepts skillId version = true ∧
        ∀ text ∈ [fileName, key], Unshadowed text skillId version
          (skills.filter fun skill => (new storageDir h refuses).accepts skill.skillId skill.version) := by
  obtain ⟨hmirrors, hreturned, -, haccepts⟩ := (new_mirrors storageDir h refuses).saveAll hskills
  rw [List.nil_append] at hmirrors
  unfold FindsLast
  rw [hmirrors.loads_cold_iff hname, ← hreturned, haccepts]
  simp only [List.mem_cons, List.not_mem_nil, or_false, forall_eq_or_imp, forall_eq]
  constructor
  · rintro ⟨hwarm, htaken, hfile⟩
    exact ⟨htaken, hfile, (hmirrors.loads_warm_iff hname (haccepts ▸ htaken) hfile).1 hwarm⟩
  · rintro ⟨htaken, hfile, hkey⟩
    exact ⟨(hmirrors.loads_warm_iff hname (haccepts ▸ htaken) hfile).2 hkey, htaken, hfile⟩

/-- A skill whose id continues another id. -/
def kbQa : SkillSpec where
  skillId := "kb_qa"
  version := "1.0.0"
  name := "Knowledge QA"
  promptTemplate := "Answer with citations."

/-- It is saved, then its next version, and then it is saved again with other words. -/
def kbQaSaves : List SkillSpec :=
  [kbQa, { kbQa with version := "1.1.0" }, { kbQa with promptTemplate := "Answer briefly." }]

/-- What was saved last under the pair is found again. -/
theorem kbQa_found :
    lastSaved "kb_qa" "1.0.0" (returnedSaves kbQaSaves configSkills) =
        some { kbQa with promptTemplate := "Answer briefly." } ∧
      FindsLast kbQaSaves configSkills "kb_qa" "1.0.0" := by
  have hseparators : ∀ skill ∈ kbQaSaves, SeparatorFree skill.skillId skill.version := by
    unfold SeparatorFree
    decide
  refine ⟨by decide +kernel, (findsLast_iff _ _ hseparators ⟨by decide, by decide⟩).2
    ⟨rfl, fun text htext skill hlast => ?_⟩⟩
  have htexts : ∀ text ∈ [fileName, key], ∀ skill ∈ kbQaSaves,
      text skill.skillId skill.version = text "kb_qa" "1.0.0" → skill.skillId = "kb_qa" ∧ skill.version = "1.0.0" := by
    simp only [List.forall_mem_cons, List.not_mem_nil, false_implies, implies_true, and_true]
    decide
  obtain ⟨hsame, hmem⟩ := lastWhere_some hlast
  exact htexts text htext skill (List.mem_filter.1 hmem).1 (by simpa using hsame)

/-- Asked for version `qa_1.0.0` of `kb`, the center returns version `1.0.0` of
`kb_qa`. -/
theorem kbQa_shadows : ¬ FindsLast [kbQa] configSkills "kb" "qa_1.0.0" := by
  rintro ⟨hwarm, -⟩
  have hnone : lastSaved "kb" "qa_1.0.0" (returnedSaves [kbQa] configSkills) = none := by decide +kernel
  have hreturns : returned (loadSkill "kb" "qa_1.0.0" (saveAll [kbQa] configSkills)) = true := by decide +kernel
  rw [hnone] at hwarm
  unfold Loads at hwarm
  cases hload : loadSkill "kb" "qa_1.0.0" (saveAll [kbQa] configSkills) with
  | ok skill center => rw [hload] at hwarm; exact hwarm
  | error exc center => rw [hload] at hreturns; cases hreturns

end SkillCenter

end Ochestrate
