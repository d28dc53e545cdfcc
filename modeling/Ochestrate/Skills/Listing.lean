import Mathlib.Data.List.Sort
import Mathlib.Data.String.Basic
import Ochestrate.Framework.Candidate
import Ochestrate.Skills.Store

/-!
# The skills of the directory

Both searches for the latest skill read files in the order of their names. What
`list_latest_skills` reports is a function of the skills read
(`listLatestSkills_eq`); for one id it is a scan over the skills of that id
(`mem_latestOf`, `find?_latestOf`). After any saves the directory reads as the
skills that were saved last under their file names, in the order of these names
(`Stored.files`).
-/

namespace Ochestrate

namespace SkillCenter

variable (int : String → Option Int)

/-- The skills of the directory, in the order of the file names. -/
def savedSkills : EStateM Exc SkillCenter (List SkillSpec) := do
  let files ← sortedGlob "*.json"
  let center ← get
  files.mapM fun file => readSkill (center.storageDir ++ file)

/-- One skill is newer than another. -/
def newer (skill skill' : SkillSpec) : Bool := versionGt int skill.version skill'.version

/-- What is reported of the skills read. -/
def latestOf (skills : List SkillSpec) : List SkillSpec :=
  (skills.foldl (keepLatest int) .empty).values.mergeSort fun skill skill' => skill.skillId ≤ skill'.skillId

/-- Reading and folding is folding what was read. -/
theorem foldlM_read {m : Type → Type} [Monad m] [LawfulMonad m] {α β γ : Type} (read : α → m β) (f : γ → β → γ) (c : γ)
    (as : List α) :
    (as.foldlM (fun c a => do
      let b ← read a
      return f c b) c) = (do
      let bs ← as.mapM read
      return bs.foldl f c) := by
  induction as generalizing c with
  | nil => simp
  | cons a as ih => simp only [List.foldlM_cons, List.mapM_cons, bind_assoc, pure_bind, ih, List.foldl_cons]

theorem listLatestSkills_eq :
    listLatestSkills int = (do
      let skills ← savedSkills
      return latestOf int skills) := by
  simp only [listLatestSkills, savedSkills, foldlM_read, bind_assoc, pure_bind]
  rfl

/-! ## What is reported for an id -/

theorem get?_keepLatest (d : Dict String SkillSpec) (spec : SkillSpec) (skillId : String) :
    (keepLatest int d spec).get? skillId =
      if spec.skillId = skillId then keepGreater (newer int) (d.get? skillId) spec else d.get? skillId := by
  unfold keepLatest
  by_cases hid : spec.skillId = skillId
  · subst hid
    rw [if_pos rfl]
    cases hold : d.get? spec.skillId with
    | none => rw [Dict.get?_set_self]; rfl
    | some old =>
      change (if newer int spec old then d.set spec.skillId spec else d).get? spec.skillId =
        if newer int spec old then some spec else some old
      by_cases hnewer : newer int spec old = true
      · rw [if_pos hnewer, if_pos hnewer, Dict.get?_set_self]
      · rw [if_neg hnewer, if_neg hnewer, hold]
  · rw [if_neg hid]
    split
    · exact d.get?_set_ne spec (Ne.symm hid)
    · split
      · exact d.get?_set_ne spec (Ne.symm hid)
      · rfl

/-- The entry of an id is kept by a scan over the skills of the id. -/
theorem get?_foldl_keepLatest (skills : List SkillSpec) (skillId : String) :
    (skills.foldl (keepLatest int) .empty).get? skillId =
      scan (newer int) (skills.filter fun skill => skill.skillId = skillId) := by
  induction skills using List.reverseRecOn with
  | nil => rfl
  | append_singleton skills skill ih =>
    rw [List.foldl_append, List.foldl_cons, List.foldl_nil, get?_keepLatest, ih, List.filter_append,
      List.filter_cons]
    by_cases hid : skill.skillId = skillId
    · rw [if_pos hid, if_pos (decide_eq_true hid), List.filter_nil, scan_concat]
    · rw [if_neg hid, if_neg (by simp [hid]), List.filter_nil, List.append_nil]

theorem skillId_of_scan {skills : List SkillSpec} {skillId : String} {skill : SkillSpec}
    (h : scan (newer int) (skills.filter fun skill => skill.skillId = skillId) = some skill) :
    skill ∈ skills ∧ skill.skillId = skillId := by
  have hmem := List.mem_filter.1 (mem_of_scan h)
  exact ⟨hmem.1, of_decide_eq_true hmem.2⟩

theorem mem_latestOf {skills : List SkillSpec} {skill : SkillSpec} :
    skill ∈ latestOf int skills ↔
      scan (newer int) (skills.filter fun skill' => skill'.skillId = skill.skillId) = some skill := by
  simp only [latestOf, List.mem_mergeSort, Dict.mem_values, get?_foldl_keepLatest]
  constructor
  · rintro ⟨skillId, hscan⟩
    rw [(skillId_of_scan int hscan).2]
    exact hscan
  · exact fun h => ⟨_, h⟩

theorem find?_latestOf (skills : List SkillSpec) (skillId : String) :
    ((latestOf int skills).find? fun skill => skill.skillId = skillId) =
      scan (newer int) (skills.filter fun skill => skill.skillId = skillId) := by
  cases hscan : scan (newer int) (skills.filter fun skill => skill.skillId = skillId) with
  | none =>
    refine List.find?_eq_none.2 fun skill hmem hid => ?_
    rw [mem_latestOf, of_decide_eq_true hid, hscan] at hmem
    cases hmem
  | some skill =>
    have hid := (skillId_of_scan int hscan).2
    have hmem : skill ∈ latestOf int skills := by
      rw [mem_latestOf, hid]
      exact hscan
    have hsome : ((latestOf int skills).find? fun skill => skill.skillId = skillId).isSome :=
      List.find?_isSome.2 ⟨skill, hmem, decide_eq_true hid⟩
    obtain ⟨found, hfound⟩ := Option.isSome_iff_exists.1 hsome
    have hlatest := (mem_latestOf int).1 (List.mem_of_find?_eq_some hfound)
    have hfoundId : found.skillId = skillId := by simpa using List.find?_some hfound
    rw [hfoundId, hscan] at hlatest
    rw [hfound, hlatest]

/-! ## The files after any saves -/

theorem filter_mergeSort {α : Type} [LinearOrder α] [DecidableRel (α := α) (· ≤ ·)] (p : α → Bool) (as : List α) :
    (as.filter p).mergeSort (fun a b => a ≤ b) = (as.mergeSort fun a b => a ≤ b).filter p := by
  refine List.Perm.eq_of_pairwise' (r := (· ≤ ·)) (List.pairwise_mergeSort' _ _)
    ((List.pairwise_mergeSort' (· ≤ ·) as).filter p) ?_
  exact (List.mergeSort_perm ..).trans ((List.mergeSort_perm ..).filter p).symm

/-- The names of the directory in their order. -/
def fileNames (center : SkillCenter) : List String :=
  (center.disk.children center.storageDir).mergeSort fun name name' => name ≤ name'

theorem sortedGlob_star (center : SkillCenter) {before after : String} (hbefore : Literal before) (hafter : Literal after) :
    sortedGlob (before ++ "*" ++ after) center =
      .ok ((center.fileNames.filter (fnmatch (before ++ "*" ++ after))).map ([·])) center := by
  have hfilter := filter_mergeSort (fnmatch (before ++ "*" ++ after)) (center.disk.children center.storageDir)
  simp only [sortedGlob, center.disk.glob_star hbefore hafter, fileNames]
  rw [← hfilter, List.map_mergeSort]
  intro name _ name' _
  have hle : [name] ≤ [name'] ↔ ¬ [name'] < [name] := not_lt.symm
  rw [decide_eq_decide, hle, List.cons_lt_cons_iff]
  simp only [lt_self_iff_false, and_false, or_false, not_lt]

/-- The directory holds the saved skills, and the system takes their names. -/
structure Filed (center : SkillCenter) (saved : List SkillSpec) : Prop extends Stored center saved where
  names : ∀ skill ∈ saved, SeparatorFree skill.skillId skill.version ∧
    center.accepts skill.skillId skill.version = true

variable {center : SkillCenter} {saved : List SkillSpec}

/-- What was saved from the start on is filed. -/
theorem saveAll_filed {storageDir : Location} (h : ".." ∉ storageDir) (refuses : List String → Bool)
    {skills : List SkillSpec} (hskills : ∀ skill ∈ skills, SeparatorFree skill.skillId skill.version) :
    Filed (saveAll skills (new storageDir h refuses)) (returnedSaves skills (new storageDir h refuses)) := by
  obtain ⟨hmirrors, hreturned, -, haccepts⟩ := (new_mirrors storageDir h refuses).saveAll hskills
  rw [List.nil_append] at hmirrors
  refine ⟨hmirrors.toStored, fun skill hmem => ?_⟩
  rw [hreturned] at hmem
  rw [haccepts]
  exact ⟨hskills skill (List.mem_filter.1 hmem).1, (List.mem_filter.1 hmem).2⟩

/-- The skill of a file: the one that was saved last under its name. -/
def skillUnder (saved : List SkillSpec) (name : String) : Option SkillSpec :=
  lastWhere (fun skill => fileName skill.skillId skill.version = name) saved

/-- The skills of the files, in the order of the names. -/
def filedSkills (center : SkillCenter) (saved : List SkillSpec) : List SkillSpec :=
  center.fileNames.filterMap (skillUnder saved)

theorem skillUnder_some {name : String} {skill : SkillSpec} (h : skillUnder saved name = some skill) :
    fileName skill.skillId skill.version = name ∧ skill ∈ saved :=
  ⟨of_decide_eq_true (lastWhere_some h).1, (lastWhere_some h).2⟩

theorem Stored.mem_fileNames (h : Stored center saved) {name : String} :
    name ∈ center.fileNames ↔ (skillUnder saved name).isSome := by
  have hfile := h.file name
  have hcontent := h.content name
  unfold Disk.isDirectory at hfile
  unfold Disk.content? at hcontent
  rw [fileNames, List.mem_mergeSort, Disk.mem_children]
  cases hentry : center.disk.entries.get? (center.storageDir ++ [name]) with
  | none =>
    rw [hentry] at hcontent
    rw [skillUnder, Option.map_eq_none_iff.1 hcontent.symm]
    decide
  | some entry =>
    cases entry with
    | directory => rw [hentry] at hfile; cases hfile
    | file content =>
      rw [hentry] at hcontent
      obtain ⟨skill, hskill, -⟩ := Option.map_eq_some_iff.1 hcontent.symm
      rw [skillUnder, hskill]
      rfl

theorem fileNames_pairwise (center : SkillCenter) : center.fileNames.Pairwise (· < ·) := by
  have hle : center.fileNames.Pairwise (· ≤ ·) := List.pairwise_mergeSort' _ _
  have hne : center.fileNames.Nodup :=
    (List.mergeSort_perm ..).nodup_iff.2 (center.disk.nodup_children center.storageDir)
  exact (hle.and hne).imp fun h => lt_of_le_of_ne h.1 h.2

theorem Stored.mem_filedSkills (h : Stored center saved) {skill : SkillSpec} :
    skill ∈ filedSkills center saved ↔ skillUnder saved (fileName skill.skillId skill.version) = some skill := by
  rw [filedSkills, List.mem_filterMap]
  constructor
  · rintro ⟨name, -, hskill⟩
    rw [(skillUnder_some hskill).1]
    exact hskill
  · exact fun hskill => ⟨_, h.mem_fileNames.2 (by rw [hskill]; rfl), hskill⟩

/-- The skills come in the order of their file names. -/
theorem filedSkills_pairwise (center : SkillCenter) (saved : List SkillSpec) :
    (filedSkills center saved).Pairwise fun skill skill' =>
      fileName skill.skillId skill.version < fileName skill'.skillId skill'.version := by
  refine center.fileNames_pairwise.filterMap _ fun name name' hlt skill hskill skill' hskill' => ?_
  rw [(skillUnder_some hskill).1, (skillUnder_some hskill').1]
  exact hlt

/-- Some of the files are read in turn. -/
theorem Filed.mapM_readSkill (h : Filed center saved) {names : List String}
    (hnames : ∀ name ∈ names, (skillUnder saved name).isSome) :
    ∃ opened, (names.map ([·])).mapM (fun file => readSkill (center.storageDir ++ file)) center =
      .ok (names.filterMap (skillUnder saved)) { center with disk := { center.disk with opened } } := by
  induction names generalizing center with
  | nil => exact ⟨_, rfl⟩
  | cons name names ih =>
    obtain ⟨skill, hskill⟩ := Option.isSome_iff_exists.1 (hnames name (List.mem_cons_self ..))
    obtain ⟨rfl, hsaved⟩ := skillUnder_some hskill
    obtain ⟨opened, hread⟩ := h.toStored.readSkill (h.names skill hsaved).1 (h.names skill hsaved).2 hskill
    have hrest : Filed { center with disk := { center.disk with opened } } saved :=
      ⟨⟨h.ready, h.file, h.content⟩, h.names⟩
    obtain ⟨opened', hreads⟩ := ih hrest fun name hmem => hnames name (List.mem_cons_of_mem _ hmem)
    refine ⟨opened', ?_⟩
    rw [List.map_cons, List.mapM_cons, bind_ok hread, bind_ok hreads, List.filterMap_cons, hskill]
    rfl

theorem literal_empty : Literal "" := by decide

theorem literal_json : Literal ".json" := by decide

/-- Every skill has the name of a skill file. -/
theorem fnmatch_fileName (skillId version : String) : fnmatch "*.json" (fileName skillId version) = true := by
  have hstar := fnmatch_star_iff literal_empty literal_json (fileName skillId version)
  refine hstar.2 ⟨(skillId ++ "_" ++ version).toList, ?_⟩
  simp [fileName]

/-- The files are read as their skills. -/
theorem Filed.savedSkills (h : Filed center saved) :
    ∃ opened, SkillCenter.savedSkills center =
      .ok (filedSkills center saved) { center with disk := { center.disk with opened } } := by
  have hall : center.fileNames.filter (fnmatch "*.json") = center.fileNames := by
    refine List.filter_eq_self.2 fun name hmem => ?_
    obtain ⟨skill, hskill⟩ := Option.isSome_iff_exists.1 (h.mem_fileNames.1 hmem)
    rw [← (skillUnder_some hskill).1]
    exact fnmatch_fileName skill.skillId skill.version
  have hglob : sortedGlob "*.json" center = .ok (center.fileNames.map ([·])) center := by
    have hstar := center.sortedGlob_star literal_empty literal_json
    change sortedGlob "*.json" center = .ok ((center.fileNames.filter (fnmatch "*.json")).map ([·])) center at hstar
    rw [hstar, hall]
  obtain ⟨opened, hreads⟩ := h.mapM_readSkill fun name hmem => h.mem_fileNames.1 hmem
  refine ⟨opened, ?_⟩
  rw [SkillCenter.savedSkills, bind_ok hglob, get_bind]
  exact hreads

/-- The file of a skill is searched for under its id. -/
def matchesId (skillId : String) (skill : SkillSpec) : Bool :=
  fnmatch (skillId ++ "_*.json") (fileName skill.skillId skill.version)

theorem literal_pattern {skillId : String} (hskill : Literal skillId) :
    Literal (skillId ++ "_") ∧ skillId ++ "_*.json" = skillId ++ "_" ++ "*" ++ ".json" := by
  constructor
  · intro c hc
    rw [String.toList_append, List.mem_append] at hc
    rcases hc with hc | hc
    · exact hskill c hc
    · rw [List.mem_singleton.1 hc]
      decide
  · simp only [String.append_assoc]
    rfl

/-- A file matches if its name goes on after the id and a `_`. -/
theorem matchesId_iff {skillId : String} (hskill : Literal skillId) (skill : SkillSpec) :
    matchesId skillId skill = true ↔
      (skillId ++ "_").toList <+: (skill.skillId ++ "_" ++ skill.version).toList := by
  obtain ⟨hliteral, hpattern⟩ := literal_pattern hskill
  rw [matchesId, hpattern, fnmatch_star_iff hliteral literal_json, fileName, String.toList_append]
  constructor
  · rintro ⟨middle, hname⟩
    rw [← List.append_assoc, List.append_cancel_right_eq] at hname
    exact ⟨middle, hname.symm⟩
  · rintro ⟨middle, hname⟩
    exact ⟨middle, by rw [← hname, List.append_assoc]⟩

theorem filter_filedSkills (center : SkillCenter) (saved : List SkillSpec) (p : String → Bool) :
    ((filedSkills center saved).filter fun skill => p (fileName skill.skillId skill.version)) =
      (center.fileNames.filter p).filterMap (skillUnder saved) := by
  unfold filedSkills
  induction center.fileNames with
  | nil => rfl
  | cons name names ih =>
    cases hskill : skillUnder saved name with
    | none =>
      rw [List.filterMap_cons_none hskill, ih, List.filter_cons]
      split
      · rw [List.filterMap_cons_none hskill]
      · rfl
    | some skill =>
      rw [List.filterMap_cons_some hskill, List.filter_cons, List.filter_cons, (skillUnder_some hskill).1, ih]
      split
      · rw [List.filterMap_cons_some hskill]
      · rfl

/-- The search for the latest skill finds the last of the files that match. -/
theorem Filed.latestSkill (h : Filed center saved) {skillId : String} (hskill : Literal skillId) :
    ∃ center', SkillCenter.latestSkill skillId center =
      .ok ((filedSkills center saved).filter (matchesId skillId)).getLast? center' := by
  obtain ⟨hliteral, hpattern⟩ := literal_pattern hskill
  have hglob := center.sortedGlob_star hliteral literal_json
  rw [← hpattern] at hglob
  have hfilter := filter_filedSkills center saved (fnmatch (skillId ++ "_*.json"))
  change (filedSkills center saved).filter (matchesId skillId) = _ at hfilter
  rw [SkillCenter.latestSkill, bind_ok hglob, hfilter]
  obtain hnames | ⟨names, name, hnames⟩ := List.eq_nil_or_concat (center.fileNames.filter (fnmatch (skillId ++ "_*.json")))
  · rw [hnames]
    exact ⟨_, rfl⟩
  · rw [List.concat_eq_append] at hnames
    have hmem : name ∈ center.fileNames.filter (fnmatch (skillId ++ "_*.json")) := by
      rw [hnames]
      simp
    obtain ⟨skill, hunder⟩ := Option.isSome_iff_exists.1 (h.mem_fileNames.1 (List.mem_filter.1 hmem).1)
    obtain ⟨rfl, hsaved⟩ := skillUnder_some hunder
    obtain ⟨opened, hread⟩ := h.toStored.readSkill (h.names skill hsaved).1 (h.names skill hsaved).2 hunder
    rw [hnames, List.map_append, List.map_singleton, List.getLast?_concat, List.filterMap_append,
      List.filterMap_cons_some hunder, List.filterMap_nil, List.getLast?_concat]
    simp only [get_bind, bind_ok hread]
    exact ⟨_, rfl⟩

/-- So what is reported is a function of the files. -/
theorem Filed.listLatestSkills (h : Filed center saved) (int : String → Option Int) :
    ∃ center', SkillCenter.listLatestSkills int center = .ok (latestOf int (filedSkills center saved)) center' := by
  obtain ⟨opened, hread⟩ := h.savedSkills
  rw [listLatestSkills_eq, bind_ok hread]
  exact ⟨_, rfl⟩

end SkillCenter

end Ochestrate
