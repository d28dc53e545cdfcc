import Ochestrate.Skills.Versions

/-!
# Two searches for the latest skill

`latest_skill` takes the last of the file names that match `id_*.json`, while
`list_latest_skills` compares the versions of each id. On integer versions the
second is the order of the numbers (`newer_iff`). `latestAgrees_iff` says for
which ids both find the skill of the id with the greatest version.
-/

namespace Ochestrate

namespace SkillCenter

variable (int : String → Option Int)

/-- The skill has an id without a separator or wildcard, and an integer version. -/
structure Numbered (skill : SkillSpec) : Prop where
  skillId : Literal skill.skillId
  version : '/' ∉ skill.version.toList
  integers : (versionParts int skill.version).isSome

/-- The numbers of a version. -/
def numbers (skill : SkillSpec) : List Int := (versionParts int skill.version).getD []

/-- The skills that no later save overwrote. -/
def keptSkills (saved : List SkillSpec) : List SkillSpec :=
  saved.filter fun skill => skillUnder saved (fileName skill.skillId skill.version) = some skill

/-- What a search should find among the skills: one of the id with the greatest
numbers, or nothing if there is none. -/
def IsLatest (skills : List SkillSpec) (skillId : String) : Option SkillSpec → Prop
  | none => ∀ skill ∈ skills, skill.skillId ≠ skillId
  | some skill => skill ∈ skills ∧ skill.skillId = skillId ∧
      ∀ other ∈ skills, other.skillId = skillId → numbers int other ≤ numbers int skill

/-- Both searches find the latest skill of the id. -/
def LatestAgrees (skills : List SkillSpec) (center : SkillCenter) (skillId : String) : Prop :=
  ∃ found center' reported center'', latestSkill skillId center = .ok found center' ∧
    listLatestSkills int center = .ok reported center'' ∧
    (reported.find? fun skill => skill.skillId = skillId) = found ∧ IsLatest int skills skillId found

/-- The only skill of the id with the greatest numbers has the last of the names
that match the id. -/
def NameDecides (skills : List SkillSpec) (skillId : String) : Prop :=
  ∃ skill ∈ skills, skill.skillId = skillId ∧
    (∀ other ∈ skills, other.skillId = skillId → other ≠ skill → numbers int other < numbers int skill) ∧
    ∀ other ∈ skills, matchesId skillId other = true → other ≠ skill →
      fileName other.skillId other.version < fileName skill.skillId skill.version

variable {int} {center : SkillCenter} {saved skills : List SkillSpec} {skillId : String}

theorem Numbered.separatorFree {skill : SkillSpec} (h : Numbered int skill) : SeparatorFree skill.skillId skill.version :=
  ⟨fun hslash => (h.skillId '/' hslash).2 rfl, h.version⟩

theorem newer_iff {skill skill' : SkillSpec} (h : (versionParts int skill.version).isSome)
    (h' : (versionParts int skill'.version).isSome) :
    newer int skill skill' = true ↔ numbers int skill' < numbers int skill := by
  obtain ⟨parts, hparts⟩ := Option.isSome_iff_exists.1 h
  obtain ⟨parts', hparts'⟩ := Option.isSome_iff_exists.1 h'
  rw [newer, versionGt_of_some hparts hparts', numbers, numbers, hparts, hparts', decide_eq_true_eq]
  rfl

theorem Stored.mem_keptSkills (h : Stored center saved) {skill : SkillSpec} :
    skill ∈ keptSkills saved ↔ skill ∈ filedSkills center saved := by
  rw [keptSkills, List.mem_filter, decide_eq_true_eq, h.mem_filedSkills]
  exact ⟨fun hkept => hkept.2, fun hunder => ⟨(skillUnder_some hunder).2, hunder⟩⟩

/-- The last element of a sorted list is the greatest. -/
theorem getLast?_eq_some_iff {α β : Type} [Preorder β] {key : α → β} {as : List α}
    (h : as.Pairwise fun a a' => key a < key a') {a : α} :
    as.getLast? = some a ↔ a ∈ as ∧ ∀ a' ∈ as, a' ≠ a → key a' < key a := by
  constructor
  · intro hlast
    rw [← List.dropLast_append_getLast? a hlast] at h ⊢
    rw [List.pairwise_append] at h
    refine ⟨by simp, fun a' hmem hne => ?_⟩
    rw [List.mem_append, List.mem_singleton] at hmem
    exact h.2.2 a' (hmem.resolve_right hne) a (List.mem_singleton_self a)
  · rintro ⟨hmem, hlt⟩
    obtain ⟨before, after, rfl⟩ := List.append_of_mem hmem
    rw [List.pairwise_append, List.pairwise_cons] at h
    have hafter : after = [] := by
      refine List.eq_nil_iff_forall_not_mem.2 fun a' ha' => ?_
      have hgreater := h.2.1.1 a' ha'
      by_cases hne : a' = a
      · exact lt_irrefl _ (hne ▸ hgreater)
      · exact lt_asymm hgreater (hlt a' (by simp [ha']) hne)
    rw [hafter, List.getLast?_concat]

/-- A skill matches its own id. -/
theorem matchesId_self {skill : SkillSpec} (h : Literal skill.skillId) : matchesId skill.skillId skill = true := by
  rw [matchesId_iff h]
  exact ⟨skill.version.toList, String.toList_append.symm⟩

/-- Nothing is found if the pattern finds no file. -/
theorem latestSkill_none_iff (center : SkillCenter) (skillId : String) :
    (∃ center', latestSkill skillId center = .ok none center') ↔
      center.disk.glob center.storageDir (skillId ++ "_*.json") = .ok [] := by
  cases hglob : center.disk.glob center.storageDir (skillId ++ "_*.json") with
  | error exc =>
    have hsorted : sortedGlob (skillId ++ "_*.json") center = .error exc center := by
      simp only [sortedGlob, hglob]
    rw [latestSkill, bind_error hsorted]
    simp
  | ok routes =>
    have hsorted : sortedGlob (skillId ++ "_*.json") center =
        .ok (routes.mergeSort fun route route' => route ≤ route') center := by
      simp only [sortedGlob, hglob]
    rw [latestSkill, bind_ok hsorted]
    cases hlast : (routes.mergeSort fun route route' => route ≤ route').getLast? with
    | none =>
      have hnil := congrArg List.length (List.getLast?_eq_none_iff.1 hlast)
      rw [List.length_mergeSort, List.length_nil, List.length_eq_zero_iff] at hnil
      rw [hnil]
      exact ⟨fun _ => rfl, fun _ => ⟨_, rfl⟩⟩
    | some route =>
      have hroutes : routes ≠ [] := by
        rintro rfl
        rw [List.mergeSort_nil] at hlast
        cases hlast
      simp only [get_bind, Except.ok.injEq, hroutes, iff_false]
      rintro ⟨center', hnone⟩
      cases hread : readSkill (center.storageDir ++ route) center with
      | error exc center'' => rw [bind_error hread] at hnone; cases hnone
      | ok skill center'' => rw [bind_ok hread] at hnone; cases hnone

/-- What the second search reports for an id. -/
theorem Filed.agrees_iff_scan (h : Filed center saved) (skillId : String) :
    LatestAgrees int skills center skillId ↔
      ∃ found center', SkillCenter.latestSkill skillId center = .ok found center' ∧
        scan (newer int) ((filedSkills center saved).filter fun skill => skill.skillId = skillId) = found ∧
        IsLatest int skills skillId found := by
  obtain ⟨center₁, hlist⟩ := h.listLatestSkills int
  unfold LatestAgrees
  simp only [hlist, EStateM.Result.ok.injEq]
  constructor
  · rintro ⟨found, center₂, reported, _, hfound, ⟨rfl, -⟩, hfind, hlatest⟩
    rw [find?_latestOf] at hfind
    exact ⟨found, center₂, hfound, hfind, hlatest⟩
  · rintro ⟨found, center₂, hfound, hscan, hlatest⟩
    rw [← find?_latestOf] at hscan
    exact ⟨found, center₂, _, _, hfound, ⟨rfl, rfl⟩, hscan, hlatest⟩

section Numbered

variable (h : Filed center saved) (hnumbered : ∀ skill ∈ saved, Numbered int skill)

include h hnumbered

theorem Filed.numbered {skill : SkillSpec} (hskill : skill ∈ filedSkills center saved) : Numbered int skill :=
  hnumbered skill (skillUnder_some (h.mem_filedSkills.1 hskill)).2

/-- The scan over an id compares numbers. -/
theorem Filed.newer_iff (skillId : String) :
    ∀ skill ∈ (filedSkills center saved).filter fun skill => skill.skillId = skillId,
      ∀ skill' ∈ (filedSkills center saved).filter fun skill => skill.skillId = skillId,
        newer int skill skill' = true ↔ numbers int skill' < numbers int skill := by
  intro skill hskill skill' hskill'
  exact SkillCenter.newer_iff (h.numbered hnumbered (List.mem_filter.1 hskill).1).integers
    (h.numbered hnumbered (List.mem_filter.1 hskill').1).integers

/-- If both searches find a skill of the id, its name and its numbers decide. -/
theorem Filed.nameDecides {skill : SkillSpec}
    (hlast : ((filedSkills center saved).filter (matchesId skillId)).getLast? = some skill)
    (hscan : scan (newer int) ((filedSkills center saved).filter fun skill => skill.skillId = skillId) = some skill) :
    NameDecides int (keptSkills saved) skillId := by
  obtain ⟨hskill, hid⟩ := skillId_of_scan int hscan
  have hsorted := filedSkills_pairwise center saved
  have hnames := ((getLast?_eq_some_iff (hsorted.filter (matchesId skillId))).1 hlast).2
  simp only [List.mem_filter, and_imp] at hnames
  refine ⟨skill, h.mem_keptSkills.2 hskill, hid, fun other hother hotherId hne => ?_, fun other hother hmatch hne => ?_⟩
  · rw [h.mem_keptSkills] at hother
    obtain ⟨before, after, hsplit, hlt, hle⟩ := split_of_scan (h.newer_iff hnumbered skillId) hscan
    have hmem : other ∈ before ++ skill :: after := by
      rw [← hsplit]
      exact List.mem_filter.2 ⟨hother, decide_eq_true hotherId⟩
    rw [List.mem_append, List.mem_cons] at hmem
    rcases hmem with hbefore | hskill' | hafter
    · exact hlt other hbefore
    · exact absurd hskill' hne
    · -- A skill that comes later would have the last name.
      have hpairwise := hsorted.filter fun skill => skill.skillId = skillId
      rw [hsplit, List.pairwise_append, List.pairwise_cons] at hpairwise
      have hgreater := hpairwise.2.1.1 other hafter
      have hmatch : matchesId skillId other = true := by
        rw [← hotherId]
        exact matchesId_self (h.numbered hnumbered hother).skillId
      exact absurd (hnames other hother hmatch hne) hgreater.asymm
  · exact hnames other (h.mem_keptSkills.1 hother) hmatch hne

/-- If its name and its numbers decide, both searches find it. -/
theorem NameDecides.latestAgrees (hskillId : Literal skillId) (hdecides : NameDecides int (keptSkills saved) skillId) :
    LatestAgrees int (keptSkills saved) center skillId := by
  obtain ⟨skill, hskill, hid, hlt, hnames⟩ := hdecides
  simp only [h.mem_keptSkills] at hskill hlt hnames
  have hmatch : matchesId skillId skill = true := by
    rw [← hid]
    exact matchesId_self (h.numbered hnumbered hskill).skillId
  obtain ⟨center', hlatest⟩ := h.latestSkill hskillId
  have hlast : ((filedSkills center saved).filter (matchesId skillId)).getLast? = some skill := by
    refine (getLast?_eq_some_iff ((filedSkills_pairwise center saved).filter _)).2 ⟨?_, fun other hother hne => ?_⟩
    · exact List.mem_filter.2 ⟨hskill, hmatch⟩
    · obtain ⟨hother, hotherMatch⟩ := List.mem_filter.1 hother
      exact hnames other hother hotherMatch hne
  have hscan : scan (newer int) ((filedSkills center saved).filter fun skill => skill.skillId = skillId) = some skill := by
    refine scan_eq_some_of_lt (h.newer_iff hnumbered skillId) ?_ fun other hother hne => ?_
    · exact List.mem_filter.2 ⟨hskill, decide_eq_true hid⟩
    · obtain ⟨hother, hotherId⟩ := List.mem_filter.1 hother
      exact hlt other hother (of_decide_eq_true hotherId) hne
  rw [hlast] at hlatest
  refine (h.agrees_iff_scan skillId).2 ⟨some skill, center', hlatest, hscan, h.mem_keptSkills.2 hskill, hid, ?_⟩
  intro other hother hotherId
  by_cases hne : other = skill
  · rw [hne]
  · exact (hlt other (h.mem_keptSkills.1 hother) hotherId hne).le

/-- If the pattern finds nothing, there is no skill of the id. -/
theorem Filed.latestAgrees_of_glob
    (hglob : center.disk.glob center.storageDir (skillId ++ "_*.json") = .ok []) :
    LatestAgrees int (keptSkills saved) center skillId := by
  obtain ⟨center', hnone⟩ := (latestSkill_none_iff center skillId).2 hglob
  have hids : ∀ skill ∈ filedSkills center saved, skill.skillId ≠ skillId := by
    rintro skill hskill rfl
    have hliteral := (h.numbered hnumbered hskill).skillId
    obtain ⟨center'', hlatest⟩ := h.latestSkill hliteral
    rw [hnone, EStateM.Result.ok.injEq] at hlatest
    have hempty := List.getLast?_eq_none_iff.1 hlatest.1.symm
    have hmem := List.mem_filter.2 ⟨hskill, matchesId_self hliteral⟩
    rw [hempty] at hmem
    cases hmem
  have hfilter : ((filedSkills center saved).filter fun skill => skill.skillId = skillId) = [] :=
    List.filter_eq_nil_iff.2 fun skill hskill hid => hids skill hskill (of_decide_eq_true hid)
  refine (h.agrees_iff_scan skillId).2 ⟨none, center', hnone, by rw [hfilter]; rfl, ?_⟩
  exact fun skill hskill => hids skill (h.mem_keptSkills.1 hskill)

/-- The two searches agree exactly if nothing matches the id, or name and numbers
decide. -/
theorem Filed.agrees_iff (skillId : String) :
    LatestAgrees int (keptSkills saved) center skillId ↔
      center.disk.glob center.storageDir (skillId ++ "_*.json") = .ok [] ∨
        NameDecides int (keptSkills saved) skillId := by
  constructor
  · intro hagrees
    obtain ⟨found, center', hfound, hscan, -⟩ := (h.agrees_iff_scan skillId).1 hagrees
    cases found with
    | none => exact .inl ((latestSkill_none_iff center skillId).1 ⟨center', hfound⟩)
    | some skill =>
      obtain ⟨hskill, hid⟩ := skillId_of_scan int hscan
      have hliteral : Literal skillId := hid ▸ (h.numbered hnumbered hskill).skillId
      obtain ⟨center'', hlatest⟩ := h.latestSkill hliteral
      rw [hfound, EStateM.Result.ok.injEq] at hlatest
      exact .inr (h.nameDecides hnumbered hlatest.1.symm hscan)
  · rintro (hglob | hdecides)
    · exact h.latestAgrees_of_glob hnumbered hglob
    · have hliteral : Literal skillId := by
        obtain ⟨skill, hskill, rfl, -⟩ := hdecides
        exact (h.numbered hnumbered (h.mem_keptSkills.1 hskill)).skillId
      exact hdecides.latestAgrees h hnumbered hliteral

end Numbered

/-- After any saves of numbered skills the two searches agree on the latest skill
of an id exactly if the pattern of the id finds no file, or the only skill of the
id with the greatest numbers has the last of the file names that match it. -/
theorem latestAgrees_iff (int : String → Option Int) {storageDir : Location} (h : ".." ∉ storageDir)
    (refuses : List String → Bool) {skills : List SkillSpec} (hskills : ∀ skill ∈ skills, Numbered int skill)
    (skillId : String) :
    LatestAgrees int (keptSkills (returnedSaves skills (new storageDir h refuses)))
        (saveAll skills (new storageDir h refuses)) skillId ↔
      (saveAll skills (new storageDir h refuses)).disk.glob storageDir (skillId ++ "_*.json") = .ok [] ∨
        NameDecides int
          (keptSkills (skills.filter fun skill => (new storageDir h refuses).accepts skill.skillId skill.version))
          skillId := by
  have hseparators : ∀ skill ∈ skills, SeparatorFree skill.skillId skill.version := fun skill hmem =>
    (hskills skill hmem).separatorFree
  obtain ⟨-, hreturned, hdir, -⟩ := (new_mirrors storageDir h refuses).saveAll hseparators
  have hfiled := saveAll_filed h refuses hseparators
  have hnumbered : ∀ skill ∈ returnedSaves skills (new storageDir h refuses), Numbered int skill := by
    intro skill hmem
    rw [hreturned] at hmem
    exact hskills skill (List.mem_filter.1 hmem).1
  rw [hfiled.agrees_iff hnumbered, hdir, hreturned]
  rfl

theorem numbered_kb (versions : List String) (hseparators : ∀ version ∈ versions, '/' ∉ version.toList)
    (hintegers : ∀ version ∈ versions, (versionParts digitsInt version).isSome) :
    ∀ skill ∈ versions.map kbVersion, Numbered digitsInt skill := by
  rw [List.forall_mem_map]
  have hkb : Literal "kb" := by decide
  exact fun version hmem => ⟨hkb, hseparators version hmem, hintegers version hmem⟩

/-- Of versions whose numbers have one digit, both searches find the greatest. -/
theorem kb_latestAgrees :
    LatestAgrees digitsInt (keptSkills (returnedSaves (["1.0.0", "2.1.0", "1.5.0"].map kbVersion) configSkills))
      (saveAll (["1.0.0", "2.1.0", "1.5.0"].map kbVersion) configSkills) "kb" := by
  refine (latestAgrees_iff digitsInt (by decide) (fun _ => false)
    (numbered_kb ["1.0.0", "2.1.0", "1.5.0"] (by decide) (by decide +kernel)) "kb").2 (.inr ?_)
  have hkept : keptSkills ((["1.0.0", "2.1.0", "1.5.0"].map kbVersion).filter fun skill =>
      configSkills.accepts skill.skillId skill.version) = ["1.0.0", "2.1.0", "1.5.0"].map kbVersion := by
    decide +kernel
  change NameDecides digitsInt (keptSkills ((["1.0.0", "2.1.0", "1.5.0"].map kbVersion).filter fun skill =>
    configSkills.accepts skill.skillId skill.version)) "kb"
  rw [hkept]
  exact ⟨kbVersion "2.1.0", by decide +kernel, rfl, by decide +kernel, by decide +kernel⟩

/-- Of `1.9.0` and `1.10.0`, the file names make `1.9.0` the latest. -/
theorem kb_not_latestAgrees :
    ¬ LatestAgrees digitsInt (keptSkills (returnedSaves (["1.9.0", "1.10.0"].map kbVersion) configSkills))
      (saveAll (["1.9.0", "1.10.0"].map kbVersion) configSkills) "kb" := by
  have hnumbered := numbered_kb ["1.9.0", "1.10.0"] (by decide) (by decide +kernel)
  have hseparators : ∀ skill ∈ ["1.9.0", "1.10.0"].map kbVersion, SeparatorFree skill.skillId skill.version :=
    fun skill hmem => (hnumbered skill hmem).separatorFree
  have hfiled := saveAll_filed (show ".." ∉ ["app", "config", "skills"] by decide) (fun _ => false) hseparators
  have hreturned : returnedSaves (["1.9.0", "1.10.0"].map kbVersion) configSkills = ["1.9.0", "1.10.0"].map kbVersion := by
    decide +kernel
  change Filed (saveAll (["1.9.0", "1.10.0"].map kbVersion) configSkills)
    (returnedSaves (["1.9.0", "1.10.0"].map kbVersion) configSkills) at hfiled
  rw [hreturned] at hfiled ⊢
  rw [hfiled.agrees_iff hnumbered]
  rintro (hglob | ⟨skill, hskill, -, hlt, hnames⟩)
  · have hfound : ((saveAll (["1.9.0", "1.10.0"].map kbVersion) configSkills).disk.glob
        (saveAll (["1.9.0", "1.10.0"].map kbVersion) configSkills).storageDir ("kb" ++ "_*.json")).toOption ≠ some [] := by
      decide +kernel
    rw [hglob] at hfound
    exact hfound rfl
  · have hmem := (List.mem_filter.1 hskill).1
    simp only [List.map_cons, List.map_nil, List.mem_cons, List.not_mem_nil, or_false] at hmem
    rcases hmem with rfl | rfl
    · have hten := hlt (kbVersion "1.10.0") (by decide +kernel) rfl (by decide +kernel)
      exact absurd hten (by decide +kernel)
    · have hnine := hnames (kbVersion "1.9.0") (by decide +kernel) (by decide +kernel) (by decide +kernel)
      exact absurd hnine (by decide +kernel)

end SkillCenter

end Ochestrate
