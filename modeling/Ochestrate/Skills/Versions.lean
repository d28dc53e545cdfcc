import Mathlib.Data.List.Lex
import Ochestrate.Skills.Listing

/-!
# The latest version

`list_latest_skills` scans the versions of an id with `_version_gt`, which
compares integer versions as lists of numbers and all other pairs as texts.
This is not an order: `reportsMaximal_bounds` says between which bounds the scan
ends on a version that none exceeds.
-/

namespace Ochestrate

namespace SkillCenter

variable (int : String → Option Int)

/-! ## Scanning versions -/

section Scan

variable (versions : List String)

/-- Each integer version comes before some other version as a text. -/
def TextsDecide : Prop :=
  ∀ version ∈ versions, (versionParts int version).isSome →
    ∃ text ∈ versions, versionParts int text = none ∧ version < text

/-- An integer version with the greatest numbers. -/
def Greatest (version : String) : Prop :=
  version ∈ versions ∧ ∃ parts, versionParts int version = some parts ∧
    ∀ other ∈ versions, ∀ parts', versionParts int other = some parts' → parts' ≤ parts

/-- It comes after all versions that are not integers, as a text. -/
def AfterTexts (version : String) : Prop := ∀ text ∈ versions, versionParts int text = none → text < version

end Scan

variable {int} {versions : List String} {version : String}

theorem versionGt_of_some {new old : String} {newParts oldParts : List Int} (hnew : versionParts int new = some newParts)
    (hold : versionParts int old = some oldParts) : versionGt int new old = decide (oldParts < newParts) := by
  simp only [versionGt, hnew, hold]

theorem versionGt_of_none {new old : String} (h : versionParts int new = none ∨ versionParts int old = none) :
    versionGt int new old = decide (old < new) := by
  unfold versionGt
  split
  · next hnew hold => rw [hnew, hold] at h; simp at h
  · rfl

theorem Greatest.unbeaten (h : Greatest int versions version) (hafter : AfterTexts int versions version) :
    Unbeaten (versionGt int) versions version := by
  obtain ⟨hmem, parts, hparts, hgreatest⟩ := h
  intro other hother
  cases hotherParts : versionParts int other with
  | none => rw [versionGt_of_none (.inl hotherParts), decide_eq_false (hafter other hother hotherParts).asymm]
  | some parts' =>
    rw [versionGt_of_some hotherParts hparts, decide_eq_false (not_lt.2 (hgreatest other hother parts' hotherParts))]

/-- The greatest text, if it comes after all integer versions. -/
theorem TextsDecide.unbeaten (h : TextsDecide int versions) {text : String} (htext : versionParts int text = none)
    (hgreatest : ∀ other ∈ versions, versionParts int other = none → other ≤ text) :
    (∀ other ∈ versions, other ≤ text) ∧ Unbeaten (versionGt int) versions text := by
  have hle : ∀ other ∈ versions, other ≤ text := by
    intro other hother
    cases hparts : versionParts int other with
    | none => exact hgreatest other hother hparts
    | some parts =>
      obtain ⟨text', hmem, hnone, hlt⟩ := h other hother (by rw [hparts]; rfl)
      exact hlt.le.trans (hgreatest text' hmem hnone)
  refine ⟨hle, fun other hother => ?_⟩
  rw [versionGt_of_none (.inr htext), decide_eq_false (not_lt.2 (hle other hother))]

/-- Of the versions of one kind one is the greatest. -/
theorem exists_greatest_where {β : Type} [LinearOrder β] (key : String → β) (p : String → Prop)
    (h : ∃ version ∈ versions, p version) :
    ∃ version ∈ versions, p version ∧ ∀ other ∈ versions, p other → key other ≤ key version := by
  classical
  obtain ⟨version, hmem, hp⟩ := h
  have hne : versions.filter (fun version => decide (p version)) ≠ [] :=
    List.ne_nil_of_mem (List.mem_filter.2 ⟨hmem, decide_eq_true hp⟩)
  obtain ⟨greatest, hgreatest, hle⟩ := exists_greatest key hne
  rw [List.mem_filter, decide_eq_true_eq] at hgreatest
  exact ⟨greatest, hgreatest.1, hgreatest.2, fun other hother hp' =>
    hle other (List.mem_filter.2 ⟨hother, decide_eq_true hp'⟩)⟩

/-- If the texts decide, the scan ends on the greatest of them. -/
theorem TextsDecide.scan (h : TextsDecide int versions) :
    ∀ kept, Ochestrate.scan (versionGt int) versions = some kept → Unbeaten (versionGt int) versions kept := by
  intro kept hkept
  have htexts : ∃ text ∈ versions, versionParts int text = none := by
    cases hparts : versionParts int kept with
    | none => exact ⟨kept, mem_of_scan hkept, hparts⟩
    | some parts =>
      obtain ⟨text, hmem, hnone, -⟩ := h kept (mem_of_scan hkept) (by rw [hparts]; rfl)
      exact ⟨text, hmem, hnone⟩
  obtain ⟨text, hmem, hnone, hgreatest⟩ := exists_greatest_where id (versionParts int · = none) htexts
  obtain ⟨hle, hunbeaten⟩ := h.unbeaten hnone hgreatest
  refine scan_unbeaten hmem hunbeaten (fun other hother => ?_) kept hkept
  rcases (hle other hother).eq_or_lt with rfl | hlt
  · exact .inl hunbeaten
  · exact .inr (by rw [versionGt_of_none (.inl hnone), decide_eq_true hlt])

/-- If the greatest numbers are after the texts, the scan ends on one of them. -/
theorem scan_of_greatest (h : ∀ version, Greatest int versions version → AfterTexts int versions version) :
    ∀ kept, scan (versionGt int) versions = some kept → Unbeaten (versionGt int) versions kept := by
  by_cases hintegers : ∃ version ∈ versions, (versionParts int version).isSome
  · obtain ⟨version, hmem, hsome, hle⟩ := exists_greatest_where (fun version => (versionParts int version).getD [])
      (fun version => (versionParts int version).isSome) hintegers
    obtain ⟨parts, hparts⟩ := Option.isSome_iff_exists.1 hsome
    have hgreatest : ∀ other ∈ versions, ∀ parts', versionParts int other = some parts' → parts' ≤ parts := by
      intro other hother parts' hparts'
      simpa [hparts, hparts'] using hle other hother (by rw [hparts']; rfl)
    have hversion : Greatest int versions version := ⟨hmem, parts, hparts, hgreatest⟩
    refine scan_unbeaten hmem (hversion.unbeaten (h version hversion)) fun other hother => ?_
    cases hother' : versionParts int other with
    | none =>
      exact .inr (by rw [versionGt_of_none (.inr hother'), decide_eq_true (h version hversion other hother hother')])
    | some parts' =>
      rcases (hgreatest other hother parts' hother').eq_or_lt with rfl | hlt
      · have htied : Greatest int versions other := ⟨hother, parts', hother', hgreatest⟩
        exact .inl (htied.unbeaten (h other htied))
      · exact .inr (by rw [versionGt_of_some hparts hother', decide_eq_true hlt])
  · have hdecide : TextsDecide int versions := fun version hmem hsome => absurd ⟨version, hmem, hsome⟩ hintegers
    exact hdecide.scan

/-- What nothing exceeds is the greatest text or one of the greatest numbers. -/
theorem of_unbeaten (hmem : version ∈ versions) (h : Unbeaten (versionGt int) versions version) :
    TextsDecide int versions ∨ ∃ version, Greatest int versions version ∧ AfterTexts int versions version := by
  cases hparts : versionParts int version with
  | none =>
    refine .inl fun other hother hsome => ⟨version, hmem, hparts, ?_⟩
    have hle := h other hother
    rw [versionGt_of_none (.inr hparts), decide_eq_false_iff_not, not_lt] at hle
    refine lt_of_le_of_ne hle ?_
    rintro rfl
    rw [hparts] at hsome
    cases hsome
  | some parts =>
    refine .inr ⟨version, ⟨hmem, parts, hparts, fun other hother parts' hparts' => ?_⟩, fun text htext hnone => ?_⟩
    · have hle := h other hother
      rw [versionGt_of_some hparts' hparts, decide_eq_false_iff_not, not_lt] at hle
      exact hle
    · have hle := h text htext
      rw [versionGt_of_none (.inl hnone), decide_eq_false_iff_not, not_lt] at hle
      refine lt_of_le_of_ne hle ?_
      rintro rfl
      rw [hparts] at hnone
      cases hnone

/-! ## What is reported -/

/-- The saved versions of an id. -/
def versionsOf (skillId : String) (skills : List SkillSpec) : List String :=
  (skills.filter fun skill => skill.skillId = skillId).map (·.version)

variable (int) in
/-- The version that is reported for the id is not exceeded by a saved one. -/
def ReportsMaximal (center : SkillCenter) (skillId : String) : Prop :=
  ∃ reported center', listLatestSkills int center = .ok reported center' ∧
    ∃ skills center', savedSkills center = .ok skills center' ∧
      ∀ skill ∈ reported, skill.skillId = skillId →
        Unbeaten (versionGt int) (versionsOf skillId skills) skill.version

theorem reportsMaximal_iff_scan {center center' : SkillCenter} {skills : List SkillSpec}
    (h : savedSkills center = .ok skills center') (skillId : String) :
    ReportsMaximal int center skillId ↔
      ∀ kept, scan (versionGt int) (versionsOf skillId skills) = some kept →
        Unbeaten (versionGt int) (versionsOf skillId skills) kept := by
  have hlist : listLatestSkills int center = .ok (latestOf int skills) center' := by
    rw [listLatestSkills_eq, bind_ok h]
    rfl
  have hscan : scan (versionGt int) (versionsOf skillId skills) =
      (scan (newer int) (skills.filter fun skill => skill.skillId = skillId)).map (·.version) := scan_map ..
  unfold ReportsMaximal
  simp only [hlist, h, EStateM.Result.ok.injEq, hscan, Option.map_eq_some_iff]
  constructor
  · rintro ⟨reported, _, ⟨rfl, -⟩, skills', _, ⟨rfl, -⟩, hunbeaten⟩ kept ⟨skill, hskill, rfl⟩
    have hid := (skillId_of_scan int hskill).2
    refine hunbeaten skill ?_ hid
    rw [mem_latestOf, hid]
    exact hskill
  · intro hunbeaten
    refine ⟨_, _, ⟨rfl, rfl⟩, _, _, ⟨rfl, rfl⟩, fun skill hmem hid => ?_⟩
    rw [mem_latestOf, hid] at hmem
    exact hunbeaten skill.version ⟨skill, hmem, rfl⟩

/-- All integer versions come before some text, or those with the greatest numbers
after all texts. -/
def Comparable (int : String → Option Int) (versions : List String) : Prop :=
  TextsDecide int versions ∨ ∀ version, Greatest int versions version → AfterTexts int versions version

theorem Comparable.reportsMaximal {center center' : SkillCenter} {skills : List SkillSpec}
    (h : savedSkills center = .ok skills center') {skillId : String}
    (hcomparable : Comparable int (versionsOf skillId skills)) : ReportsMaximal int center skillId := by
  rw [reportsMaximal_iff_scan h]
  rcases hcomparable with hdecide | hgreatest
  · exact hdecide.scan
  · exact scan_of_greatest hgreatest

theorem ReportsMaximal.exists {center center' : SkillCenter} {skills : List SkillSpec}
    (h : savedSkills center = .ok skills center') {skillId : String} (hmaximal : ReportsMaximal int center skillId) :
    TextsDecide int (versionsOf skillId skills) ∨
      ∃ version, Greatest int (versionsOf skillId skills) version ∧
        AfterTexts int (versionsOf skillId skills) version := by
  rw [reportsMaximal_iff_scan h] at hmaximal
  cases hscan : scan (versionGt int) (versionsOf skillId skills) with
  | none =>
    rw [scan_eq_none_iff.1 hscan]
    exact .inl fun version hmem => absurd hmem List.not_mem_nil
  | some kept => exact of_unbeaten (mem_of_scan hscan) (hmaximal kept hscan)

/-- The reported version is maximal if all integer versions come before some text,
or those with the greatest numbers after all texts. It is maximal only if one with
the greatest numbers does. These bounds meet if the greatest numbers are spelled
in one way. -/
theorem reportsMaximal_bounds (int : String → Option Int) {center center' : SkillCenter} {skills : List SkillSpec}
    (h : savedSkills center = .ok skills center') (skillId : String) :
    (Comparable int (versionsOf skillId skills) → ReportsMaximal int center skillId) ∧
    (ReportsMaximal int center skillId →
      TextsDecide int (versionsOf skillId skills) ∨
        ∃ version, Greatest int (versionsOf skillId skills) version ∧
          AfterTexts int (versionsOf skillId skills) version) ∧
    ((∀ version version', Greatest int (versionsOf skillId skills) version →
        Greatest int (versionsOf skillId skills) version' → version = version') →
      (ReportsMaximal int center skillId ↔ Comparable int (versionsOf skillId skills))) := by
  refine ⟨fun hcomparable => hcomparable.reportsMaximal h, fun hmaximal => hmaximal.exists h, fun hunique => ?_⟩
  constructor
  · intro hmaximal
    rcases hmaximal.exists h with hdecide | ⟨version, hgreatest, hafter⟩
    · exact .inl hdecide
    · refine .inr fun version' hgreatest' => ?_
      rw [hunique version' version hgreatest' hgreatest]
      exact hafter
  · exact fun hcomparable => hcomparable.reportsMaximal h

/-- `int(text)` of a text of decimal digits. -/
def digitsInt (text : String) : Option Int :=
  if text ≠ "" ∧ text.toList.all Char.isDigit then
    some (text.toList.foldl (fun n c => 10 * n + (c.toNat - '0'.toNat)) 0 : Nat)
  else none

/-- A version of the skill `kb`. -/
def kbVersion (version : String) : SkillSpec where
  skillId := "kb"
  version
  name := "Knowledge QA"
  promptTemplate := "Answer with citations."

theorem fileName_inj {skillId version version' : String} :
    fileName skillId version = fileName skillId version' ↔ version = version' := by
  simp [fileName]

/-- The versions of `kb` that the server has after they were saved. -/
theorem versionsOf_kb (versions : List String) (hseparators : ∀ version ∈ versions, '/' ∉ version.toList) :
    ∃ skills center', savedSkills (saveAll (versions.map kbVersion) configSkills) = .ok skills center' ∧
      ∀ version, version ∈ versionsOf "kb" skills ↔ version ∈ versions := by
  have hskills : ∀ skill ∈ versions.map kbVersion, SeparatorFree skill.skillId skill.version := by
    rw [List.forall_mem_map]
    have hkb : '/' ∉ "kb".toList := by decide
    exact fun version hmem => ⟨hkb, hseparators version hmem⟩
  have hfiled := saveAll_filed (show ".." ∉ ["app", "config", "skills"] by decide) (fun _ => false) hskills
  have hreturned : returnedSaves (versions.map kbVersion) configSkills = versions.map kbVersion := by
    refine ((new_mirrors _ _ _).saveAll hskills).2.1.trans (List.filter_eq_self.2 fun skill _ => ?_)
    rfl
  change Filed (saveAll (versions.map kbVersion) configSkills) (returnedSaves (versions.map kbVersion) configSkills) at hfiled
  rw [hreturned] at hfiled
  obtain ⟨opened, hread⟩ := hfiled.savedSkills
  refine ⟨_, _, hread, fun version => ?_⟩
  simp only [versionsOf, List.mem_map, List.mem_filter, decide_eq_true_eq, hfiled.mem_filedSkills]
  constructor
  · rintro ⟨skill, ⟨hunder, -⟩, rfl⟩
    obtain ⟨version, hmem, rfl⟩ := List.mem_map.1 (skillUnder_some hunder).2
    exact hmem
  · intro hmem
    refine ⟨kbVersion version, ⟨?_, rfl⟩, rfl⟩
    cases hunder : skillUnder (versions.map kbVersion) (fileName "kb" version) with
    | none =>
      have hnone := lastWhere_eq_none.1 hunder (kbVersion version) (List.mem_map_of_mem hmem)
      exact absurd rfl (of_decide_eq_false hnone)
    | some skill =>
      obtain ⟨hname, hsaved⟩ := skillUnder_some hunder
      obtain ⟨version', -, rfl⟩ := List.mem_map.1 hsaved
      have hversion : version' = version := fileName_inj.1 hname
      rw [hversion] at hunder
      exact hunder

/-- Of integer versions the greatest is reported. -/
theorem kb_reportsMaximal : ReportsMaximal digitsInt (saveAll (["9", "10"].map kbVersion) configSkills) "kb" := by
  obtain ⟨skills, center', hread, hversions⟩ := versionsOf_kb ["9", "10"] (by decide)
  refine (reportsMaximal_bounds digitsInt hread "kb").1 (.inr fun _ _ text htext hnone => ?_)
  rw [hversions, List.mem_cons, List.mem_singleton] at htext
  rcases htext with rfl | rfl
  · exact absurd hnone (by decide +kernel)
  · exact absurd hnone (by decide +kernel)

/-- With `5x` beside them, `9` is reported. -/
theorem kb_not_reportsMaximal :
    ¬ ReportsMaximal digitsInt (saveAll (["10", "5x", "9"].map kbVersion) configSkills) "kb" := by
  obtain ⟨skills, center', hread, hversions⟩ := versionsOf_kb ["10", "5x", "9"] (by decide)
  have hten : versionParts digitsInt "10" = some [10] := by decide +kernel
  have htext : versionParts digitsInt "5x" = none := by decide +kernel
  have hnine : versionParts digitsInt "9" = some [9] := by decide +kernel
  intro hmaximal
  rcases hmaximal.exists hread with hdecide | ⟨version, ⟨hmem, parts, hparts, hgreatest⟩, hafter⟩
  · obtain ⟨text, hmem, hnone, hlt⟩ := hdecide "9" ((hversions "9").2 (by decide)) (by rw [hnine]; rfl)
    rw [hversions] at hmem
    simp only [List.mem_cons, List.not_mem_nil, or_false] at hmem
    rcases hmem with rfl | rfl | rfl
    · rw [hten] at hnone; cases hnone
    · exact absurd hlt (by decide +kernel)
    · rw [hnine] at hnone; cases hnone
  · rw [hversions] at hmem
    simp only [List.mem_cons, List.not_mem_nil, or_false] at hmem
    rcases hmem with rfl | rfl | rfl
    · exact absurd (hafter "5x" ((hversions "5x").2 (by decide)) htext) (by decide +kernel)
    · rw [htext] at hparts; cases hparts
    · have hle := hgreatest "10" ((hversions "10").2 (by decide)) [10] hten
      rw [hnine, Option.some.injEq] at hparts
      rw [← hparts] at hle
      exact absurd hle (by decide)

end SkillCenter

end Ochestrate
