import Ochestrate.Framework.Groups
import Ochestrate.Skills.Context
import Ochestrate.Skills.Versions

/-!
# The order of the skill files

What is merged under a name is decided by the items of that name
(`get?_mergeFiles`, `get?_mergeSkills`): by the skills of the center if there are
any, and otherwise by the last file. The sorted items are determined by the
dictionary alone (`sorted_eq_iff`). So the items of `load` have each name once
and in order, and they are the same in every order of the files exactly if no
name is left to the order (`load_iff`).
-/

namespace Ochestrate

namespace SkillContextService

variable (B : Builtins) (int : String → Option Int)

/-- Where the center has no skill of a name, the files of that name in the last
directory that has any give one item. -/
def Unambiguous (skills : List SkillSpec) (scans : List (List SkillFile)) : Prop :=
  ∀ name, (∀ skill ∈ skills, B.lower skill.name ≠ name) →
    ∀ file ∈ lastGroup (fun file => key B (itemOfFile file) = name) scans,
    ∀ file' ∈ lastGroup (fun file => key B (itemOfFile file) = name) scans, itemOfFile file = itemOfFile file'

/-- The items have each name of a skill or file once and in order, and those of
skills are enabled explicitly. -/
structure Loaded (skills : List SkillSpec) (scans : List (List SkillFile)) (items : List SkillContextItem) : Prop where
  sorted : (items.map (key B)).Pairwise (· < ·)
  names : ∀ name, name ∈ items.map (key B) ↔ (∃ skill ∈ skills, B.lower skill.name = name) ∨
    ∃ scan ∈ scans, ∃ file ∈ scan, B.lower (extractName file) = name
  explicit : ∀ item ∈ items, item.explicitEnabled = true ↔ ∃ skill ∈ skills, B.lower skill.name = B.lower item.name

/-! ## What is merged under a name -/

/-- One item is merged with what is there. -/
def choose (existing : Option SkillContextItem) (item : SkillContextItem) : Option SkillContextItem :=
  match existing with
  | none => some item
  | some existing => if replaces int item existing then some item else some existing

theorem get?_mergeFiles (fromFiles : List SkillContextItem) (name : String) :
    (fromFiles.foldl (mergeFile B) .empty).get? name = (fromFiles.filter fun item => key B item = name).getLast? := by
  induction fromFiles using List.reverseRecOn with
  | nil => rfl
  | append_singleton items item ih =>
    rw [List.foldl_append, List.foldl_cons, List.foldl_nil, mergeFile, Dict.get?_set, ih, List.filter_append]
    by_cases hname : key B item = name
    · rw [if_pos hname.symm, List.filter_cons_of_pos (by simpa using hname), List.filter_nil, List.getLast?_concat]
    · rw [if_neg (Ne.symm hname), List.filter_cons_of_neg (by simpa using hname), List.filter_nil, List.append_nil]

theorem get?_mergeSkill (merged : Dict String SkillContextItem) (item : SkillContextItem) (name : String) :
    (mergeSkill B int merged item).get? name =
      if key B item = name then choose int (merged.get? name) item else merged.get? name := by
  unfold mergeSkill
  by_cases hname : key B item = name
  · subst hname
    rw [if_pos rfl]
    cases hold : merged.get? (key B item) with
    | none => exact merged.get?_set_self (key B item) item
    | some existing =>
      simp only [choose]
      split
      · exact merged.get?_set_self (key B item) item
      · exact hold
  · rw [if_neg hname]
    split
    · exact merged.get?_set_ne item (Ne.symm hname)
    · split
      · exact merged.get?_set_ne item (Ne.symm hname)
      · rfl

/-- The skills of a name are merged with what the files left. -/
theorem get?_mergeSkills (fromCenter : List SkillContextItem) (merged : Dict String SkillContextItem) (name : String) :
    (fromCenter.foldl (mergeSkill B int) merged).get? name =
      (fromCenter.filter fun item => key B item = name).foldl (choose int) (merged.get? name) := by
  induction fromCenter generalizing merged with
  | nil => rfl
  | cons item items ih =>
    rw [List.foldl_cons, ih, get?_mergeSkill]
    by_cases hname : key B item = name
    · rw [if_pos hname, List.filter_cons_of_pos (by simpa using hname), List.foldl_cons]
    · rw [if_neg hname, List.filter_cons_of_neg (by simpa using hname)]

/-- One of the items merged is there in the end. -/
theorem foldl_choose (existing : Option SkillContextItem) (items : List SkillContextItem) :
    ((items.foldl (choose int) existing).isSome ↔ existing.isSome ∨ items ≠ []) ∧
      ∀ item, items.foldl (choose int) existing = some item → existing = some item ∨ item ∈ items := by
  induction items generalizing existing with
  | nil => exact ⟨by simp, fun item h => .inl h⟩
  | cons first items ih =>
    obtain ⟨hsome, hmem⟩ := ih (choose int existing first)
    have hchoose : (choose int existing first).isSome ∧
        ∀ item, choose int existing first = some item → existing = some item ∨ item = first := by
      unfold choose
      cases existing with
      | none => exact ⟨rfl, fun item h => .inr (Option.some.inj h).symm⟩
      | some existing =>
        dsimp only
        split
        · exact ⟨rfl, fun item h => .inr (Option.some.inj h).symm⟩
        · exact ⟨rfl, fun item h => .inl h⟩
    rw [List.foldl_cons]
    refine ⟨by rw [hsome]; simp [hchoose.1], fun item h => ?_⟩
    obtain h | h := hmem item h
    · obtain h | rfl := hchoose.2 item h
      · exact .inl h
      · exact .inr (List.mem_cons_self ..)
    · exact .inr (List.mem_cons_of_mem _ h)

/-- A skill of the center replaces what a file left. -/
theorem foldl_choose_explicit {existing : Option SkillContextItem} {items : List SkillContextItem} (hne : items ≠ [])
    (hexplicit : ∀ item ∈ items, item.explicitEnabled = true)
    (hfile : ∀ item, existing = some item → item.explicitEnabled = false) :
    items.foldl (choose int) existing = items.foldl (choose int) none := by
  cases items with
  | nil => exact absurd rfl hne
  | cons first items =>
    have hfirst : choose int existing first = some first := by
      cases existing with
      | none => rfl
      | some old =>
        have hreplaces : replaces int first old = true := by
          rw [replaces, hexplicit first (List.mem_cons_self ..), hfile old rfl]
          rfl
        simp only [choose, hreplaces, ↓reduceIte]
    rw [List.foldl_cons, List.foldl_cons, hfirst]
    rfl

theorem get?_merge (fromFiles fromCenter : List SkillContextItem) (name : String) :
    (merge B int fromFiles fromCenter).get? name =
      (fromCenter.filter fun item => key B item = name).foldl (choose int)
        (fromFiles.filter fun item => key B item = name).getLast? := by
  rw [merge, get?_mergeSkills, get?_mergeFiles]

/-- An item stands under its own name. -/
theorem merge_keyed {fromFiles fromCenter : List SkillContextItem} {name : String} {item : SkillContextItem}
    (h : (merge B int fromFiles fromCenter).get? name = some item) :
    key B item = name ∧ (item ∈ fromFiles ∨ item ∈ fromCenter) := by
  rw [get?_merge] at h
  obtain h | h := (foldl_choose int _ _).2 item h
  · have hmem := List.mem_filter.1 (List.mem_of_getLast? h)
    exact ⟨of_decide_eq_true hmem.2, .inl hmem.1⟩
  · have hmem := List.mem_filter.1 h
    exact ⟨of_decide_eq_true hmem.2, .inr hmem.1⟩

/-- There is an item for every name of a file or skill. -/
theorem isSome_merge (fromFiles fromCenter : List SkillContextItem) (name : String) :
    ((merge B int fromFiles fromCenter).get? name).isSome ↔
      (∃ item ∈ fromFiles, key B item = name) ∨ ∃ item ∈ fromCenter, key B item = name := by
  rw [get?_merge, (foldl_choose int _ _).1, Option.isSome_iff_ne_none, ne_eq, List.getLast?_eq_none_iff]
  simp [List.filter_eq_nil_iff]

/-! ## Sorting -/

section Sorted

variable {merged merged' : Dict String SkillContextItem}

/-- Every item stands under its own name. -/
def Keyed (merged : Dict String SkillContextItem) : Prop :=
  ∀ name item, merged.get? name = some item → key B item = name

theorem mem_sorted {B : Builtins} (h : Keyed B merged) {item : SkillContextItem} :
    item ∈ sorted B merged ↔ merged.get? (key B item) = some item := by
  rw [sorted, List.mem_insertionSort, Dict.mem_values]
  constructor
  · rintro ⟨name, hget⟩
    rw [h name item hget]
    exact hget
  · exact fun hget => ⟨_, hget⟩

theorem values_keys {B : Builtins} (h : Keyed B merged) : merged.values.map (key B) = merged.keys := by
  rw [Dict.values, Dict.keys, List.map_map]
  refine List.map_congr_left fun entry hentry => ?_
  exact h entry.1 entry.2 ((Dict.mem_entries_iff merged).1 hentry)

/-- The names ascend, none twice. -/
theorem sorted_pairwise {B : Builtins} (h : Keyed B merged) :
    (sorted B merged).Pairwise fun item item' => key B item < key B item' := by
  have hle : (sorted B merged).Pairwise fun item item' => key B item ≤ key B item' := by
    have : Std.Total fun item item' : SkillContextItem => key B item ≤ key B item' := ⟨fun _ _ => le_total _ _⟩
    have : IsTrans SkillContextItem fun item item' => key B item ≤ key B item' := ⟨fun _ _ _ => le_trans⟩
    exact List.pairwise_insertionSort _ _
  have hnodup : ((sorted B merged).map (key B)).Nodup := by
    refine ((List.perm_insertionSort _ _).map (key B)).nodup_iff.2 ?_
    rw [values_keys h]
    exact merged.nodup
  exact (hle.and (List.pairwise_map.1 hnodup)).imp fun hand => lt_of_le_of_ne hand.1 hand.2

/-- The items determine the dictionary, and the dictionary the items. -/
theorem sorted_eq_iff {B : Builtins} (h : Keyed B merged) (h' : Keyed B merged') :
    sorted B merged = sorted B merged' ↔ ∀ name, merged.get? name = merged'.get? name := by
  constructor
  · intro heq name
    refine Option.ext fun item => ⟨fun hget => ?_, fun hget => ?_⟩
    · have hname := h name item hget
      subst hname
      exact (mem_sorted h').1 (heq ▸ (mem_sorted h).2 hget)
    · have hname := h' name item hget
      subst hname
      exact (mem_sorted h).1 (heq ▸ (mem_sorted h').2 hget)
  · intro hget
    have hnodup : ∀ {merged}, Keyed B merged → (sorted B merged).Nodup := fun hkeyed =>
      (sorted_pairwise hkeyed).imp fun hlt heq => absurd (heq ▸ hlt) (lt_irrefl _)
    have hperm : (sorted B merged).Perm (sorted B merged') :=
      (List.perm_ext_iff_of_nodup (hnodup h) (hnodup h')).2 fun item => by
        rw [mem_sorted h, mem_sorted h', hget]
    exact hperm.eq_of_pairwise (fun _ _ _ _ hlt hlt' => absurd hlt' (lt_asymm hlt)) (sorted_pairwise h)
      (sorted_pairwise h')

end Sorted

/-! ## Loading -/

section Load

variable {fromFiles fromCenter : List SkillContextItem}

section Explicit

variable (hfiles : ∀ item ∈ fromFiles, item.explicitEnabled = false)
variable (hcenter : ∀ item ∈ fromCenter, item.explicitEnabled = true)

include hfiles hcenter

/-- Where the center has skills of a name, the files are not read. -/
theorem get?_merge_of_mem {name : String} (h : ∃ item ∈ fromCenter, key B item = name) :
    (merge B int fromFiles fromCenter).get? name =
      (fromCenter.filter fun item => key B item = name).foldl (choose int) none := by
  obtain ⟨item, hmem, hname⟩ := h
  have hne : (fromCenter.filter fun item => key B item = name) ≠ [] :=
    List.ne_nil_of_mem (List.mem_filter.2 ⟨hmem, decide_eq_true hname⟩)
  rw [get?_merge]
  exact foldl_choose_explicit int hne (fun item h => hcenter item (List.mem_filter.1 h).1) fun item h =>
    hfiles item (List.mem_filter.1 (List.mem_of_getLast? h)).1

/-- An item is enabled explicitly exactly if the center has a skill of its name. -/
theorem explicit_merge {name : String} {item : SkillContextItem}
    (h : (merge B int fromFiles fromCenter).get? name = some item) :
    item.explicitEnabled = true ↔ ∃ item ∈ fromCenter, key B item = name := by
  constructor
  · intro hexplicit
    obtain ⟨hname, hfile | hskill⟩ := merge_keyed B int h
    · rw [hfiles item hfile] at hexplicit
      cases hexplicit
    · exact ⟨item, hskill, hname⟩
  · intro hskill
    rw [get?_merge_of_mem B int hfiles hcenter hskill] at h
    obtain h | h := (foldl_choose int _ _).2 item h
    · cases h
    · exact hcenter item (List.mem_filter.1 h).1

end Explicit

/-- Where the center has no skill of a name, the last file decides. -/
theorem get?_merge_of_forall_ne {name : String} (h : ∀ item ∈ fromCenter, key B item ≠ name) :
    (merge B int fromFiles fromCenter).get? name = (fromFiles.filter fun item => key B item = name).getLast? := by
  have hnil : (fromCenter.filter fun item => key B item = name) = [] := by
    rw [List.filter_eq_nil_iff]
    exact fun item hmem => by simpa using h item hmem
  rw [get?_merge, hnil, List.foldl_nil]

end Load

section Center

variable {center center' : SkillCenter} {skills : List SkillSpec} {scans : List (List SkillFile)}

/-- What is loaded from the files and the skills. -/
def loaded (center : SkillCenter) (skills : List SkillSpec) (scans : List (List SkillFile)) :
    Dict String SkillContextItem :=
  merge B int (scans.flatten.map itemOfFile) (skills.map (itemOfSkill center))

theorem load_eq (h : SkillCenter.listLatestSkills int center = .ok skills center') (scans : List (List SkillFile)) :
    load B int scans center = .ok (sorted B (loaded B int center' skills scans)) center' := by
  have hcenter : loadFromSkillCenter int center = .ok (skills.map (itemOfSkill center')) center' := by
    rw [loadFromSkillCenter, bind_ok h]
    rfl
  rw [load, bind_ok hcenter]
  rfl

theorem loaded_keyed : Keyed B (loaded B int center skills scans) :=
  fun _ _ hget => (merge_keyed B int hget).1

theorem files_not_explicit : ∀ item ∈ scans.flatten.map itemOfFile, item.explicitEnabled = false :=
  List.forall_mem_map.2 fun _ _ => rfl

theorem skills_explicit : ∀ item ∈ skills.map (itemOfSkill center), item.explicitEnabled = true :=
  List.forall_mem_map.2 fun _ _ => rfl

/-- The names of the skills are those of their items. -/
theorem exists_skill_iff {name : String} :
    (∃ item ∈ skills.map (itemOfSkill center), key B item = name) ↔ ∃ skill ∈ skills, B.lower skill.name = name := by
  simp only [List.mem_map, exists_exists_and_eq_and]
  rfl

theorem exists_file_iff {name : String} :
    (∃ item ∈ scans.flatten.map itemOfFile, key B item = name) ↔
      ∃ scan ∈ scans, ∃ file ∈ scan, B.lower (extractName file) = name := by
  simp only [List.mem_map, List.mem_flatten, exists_exists_and_eq_and]
  constructor
  · rintro ⟨file, ⟨scan, hscan, hfile⟩, hname⟩
    exact ⟨scan, hscan, file, hfile, hname⟩
  · rintro ⟨scan, hscan, file, hfile, hname⟩
    exact ⟨file, ⟨scan, hscan, hfile⟩, hname⟩

theorem loaded_sorted : Loaded B skills scans (sorted B (loaded B int center skills scans)) where
  sorted := List.pairwise_map.2 (sorted_pairwise (loaded_keyed B int))
  names name := by
    have hmem : name ∈ (sorted B (loaded B int center skills scans)).map (key B) ↔
        ((loaded B int center skills scans).get? name).isSome := by
      rw [List.mem_map, Option.isSome_iff_exists]
      constructor
      · rintro ⟨item, hitem, rfl⟩
        exact ⟨item, (mem_sorted (loaded_keyed B int)).1 hitem⟩
      · rintro ⟨item, hget⟩
        have hname := loaded_keyed B int name item hget
        exact ⟨item, (mem_sorted (loaded_keyed B int)).2 (hname ▸ hget), hname⟩
    rw [hmem, loaded, isSome_merge, or_comm, exists_skill_iff, exists_file_iff]
  explicit item hitem := by
    have hget := (mem_sorted (loaded_keyed B int)).1 hitem
    rw [explicit_merge B int files_not_explicit skills_explicit hget, exists_skill_iff]
    rfl

/-- Where the center has no skill of a name, the last file of it is loaded. -/
theorem get?_loaded_of_forall_ne {name : String} (h : ∀ skill ∈ skills, B.lower skill.name ≠ name) :
    (loaded B int center skills scans).get? name =
      (scans.flatten.filter fun file => key B (itemOfFile file) = name).getLast?.map itemOfFile := by
  rw [loaded, get?_merge_of_forall_ne B int (List.forall_mem_map.2 h), List.filter_map, List.getLast?_map]
  rfl

/-- The orders of the files leave the items as they are exactly if no name is
ambiguous. -/
theorem loaded_independent_iff (center : SkillCenter) (skills : List SkillSpec) (scans : List (List SkillFile)) :
    (∀ scans', List.Forall₂ List.Perm scans scans' →
        sorted B (loaded B int center skills scans') = sorted B (loaded B int center skills scans)) ↔
      Unambiguous B skills scans := by
  simp only [sorted_eq_iff (loaded_keyed B int) (loaded_keyed B int)]
  constructor
  · intro h name hname
    refine (last_independent_iff _ itemOfFile scans).1 fun scans' hperm => ?_
    rw [← get?_loaded_of_forall_ne B int hname, ← get?_loaded_of_forall_ne B int hname, h scans' hperm]
  · intro h scans' hperm name
    by_cases hskill : ∃ skill ∈ skills, B.lower skill.name = name
    · have hmem : ∃ item ∈ skills.map (itemOfSkill center), key B item = name := (exists_skill_iff B).2 hskill
      rw [loaded, loaded, get?_merge_of_mem B int files_not_explicit skills_explicit hmem,
        get?_merge_of_mem B int files_not_explicit skills_explicit hmem]
    · have hname : ∀ skill ∈ skills, B.lower skill.name ≠ name := fun skill hmem heq => hskill ⟨skill, hmem, heq⟩
      rw [get?_loaded_of_forall_ne B int hname, get?_loaded_of_forall_ne B int hname]
      exact (last_independent_iff _ itemOfFile scans).2 (h name hname) scans' hperm

/-- The items are as described, and in every order of the files the same, exactly
if no name is ambiguous. -/
theorem load_iff (hskills : SkillCenter.listLatestSkills int center = .ok skills center') :
    (∃ items, load B int scans center = .ok items center' ∧ Loaded B skills scans items ∧
        ∀ scans', List.Forall₂ List.Perm scans scans' → load B int scans' center = .ok items center') ↔
      Unambiguous B skills scans := by
  rw [← loaded_independent_iff B int center']
  constructor
  · rintro ⟨items, hload, -, hsame⟩ scans' hperm
    have heq := (hsame scans' hperm).trans hload.symm
    rw [load_eq B int hskills, load_eq B int hskills] at heq
    injection heq
  · intro h
    refine ⟨_, load_eq B int hskills scans, loaded_sorted B int, fun scans' hperm => ?_⟩
    rw [load_eq B int hskills, h scans' hperm]

end Center

/-! ## The files of one name -/

def skillMd (directory heading : String) : SkillFile where
  parentName := directory
  path := "/app/skills/" ++ directory ++ "/SKILL.md"
  text := "# " ++ heading ++ "\n"

open SkillCenter (saveAll returnedSaves filedSkills latestOf kbVersion digitsInt configSkills)

/-- The center of one saved skill lists it. -/
theorem listLatestSkills_kb :
    ∃ center', SkillCenter.listLatestSkills digitsInt (saveAll [kbVersion "1.0.0"] configSkills) =
      .ok [kbVersion "1.0.0"] center' := by
  have hseparators : ∀ skill ∈ [kbVersion "1.0.0"], SkillCenter.SeparatorFree skill.skillId skill.version :=
    List.forall_mem_singleton.2 ⟨by decide, by decide⟩
  have hfiled := SkillCenter.saveAll_filed (show ".." ∉ ["app", "config", "skills"] by decide) (fun _ => false) hseparators
  have hfound : filedSkills (saveAll [kbVersion "1.0.0"] configSkills)
      (returnedSaves [kbVersion "1.0.0"] configSkills) = [kbVersion "1.0.0"] := by
    decide +kernel
  obtain ⟨center', hlist⟩ := hfiled.listLatestSkills digitsInt
  change _ = EStateM.Result.ok (latestOf digitsInt (filedSkills (saveAll [kbVersion "1.0.0"] configSkills)
    (returnedSaves [kbVersion "1.0.0"] configSkills))) center' at hlist
  rw [hfound] at hlist
  exact ⟨center', hlist.trans (congrArg (EStateM.Result.ok · center') (List.mergeSort_singleton _))⟩

def kbScans : List (List SkillFile) :=
  [[skillMd "kb" "Knowledge QA", skillMd "kb-old" "knowledge qa"], [skillMd "notes" "Notes"]]

def notesScans : List (List SkillFile) := [[skillMd "notes" "Notes", skillMd "notes-old" "Notes"]]

/-- Two files have the name of the skill, and another has a name of its own. -/
theorem kb_load :
    ∃ center', SkillCenter.listLatestSkills digitsInt (saveAll [kbVersion "1.0.0"] configSkills) =
        .ok [kbVersion "1.0.0"] center' ∧
      ∃ items, load asciiBuiltins digitsInt kbScans (saveAll [kbVersion "1.0.0"] configSkills) = .ok items center' ∧
        Loaded asciiBuiltins [kbVersion "1.0.0"] kbScans items ∧
        ∀ scans', List.Forall₂ List.Perm kbScans scans' →
          load asciiBuiltins digitsInt scans' (saveAll [kbVersion "1.0.0"] configSkills) = .ok items center' := by
  obtain ⟨center', hlist⟩ := listLatestSkills_kb
  refine ⟨center', hlist, (load_iff asciiBuiltins digitsInt hlist).2 fun name hname => ?_⟩
  have hkb : "knowledge qa" ≠ name := hname (kbVersion "1.0.0") (List.mem_singleton_self _)
  have honly : ∀ file ∈ lastGroup (fun file => key asciiBuiltins (itemOfFile file) = name) kbScans,
      file = skillMd "notes" "Notes" := by
    intro file hfile
    obtain ⟨hkey, scan, hscan, hmem⟩ := mem_of_mem_lastGroup hfile
    have hnames : ∀ scan ∈ kbScans, ∀ file ∈ scan,
        key asciiBuiltins (itemOfFile file) = "knowledge qa" ∨ file = skillMd "notes" "Notes" := by
      decide +kernel
    exact (hnames scan hscan file hmem).resolve_left fun heq => hkb (heq.symm.trans (of_decide_eq_true hkey))
  intro file hfile file' hfile'
  rw [honly file hfile, honly file' hfile']

/-- Of two files with one name in a directory, the one enumerated last is loaded. -/
theorem notes_not_independent :
    ∃ center', SkillCenter.listLatestSkills digitsInt (saveAll [kbVersion "1.0.0"] configSkills) =
        .ok [kbVersion "1.0.0"] center' ∧
      ¬ ∃ items, load asciiBuiltins digitsInt notesScans (saveAll [kbVersion "1.0.0"] configSkills) =
          .ok items center' ∧
        Loaded asciiBuiltins [kbVersion "1.0.0"] notesScans items ∧
        ∀ scans', List.Forall₂ List.Perm notesScans scans' →
          load asciiBuiltins digitsInt scans' (saveAll [kbVersion "1.0.0"] configSkills) = .ok items center' := by
  obtain ⟨center', hlist⟩ := listLatestSkills_kb
  refine ⟨center', hlist, ?_⟩
  rintro ⟨items, hload, -, hsame⟩
  have hswap := hsame [[skillMd "notes-old" "Notes", skillMd "notes" "Notes"]] (.cons (List.Perm.swap _ _ _) .nil)
  rw [load_eq asciiBuiltins digitsInt hlist] at hload hswap
  have heq := hload.trans hswap.symm
  injection heq with heq
  have hget := (sorted_eq_iff (loaded_keyed asciiBuiltins digitsInt) (loaded_keyed asciiBuiltins digitsInt)).1 heq "notes"
  have hname : ∀ skill ∈ [kbVersion "1.0.0"], asciiBuiltins.lower skill.name ≠ "notes" := by
    decide +kernel
  rw [get?_loaded_of_forall_ne _ _ hname, get?_loaded_of_forall_ne _ _ hname] at hget
  exact absurd hget (by decide +kernel)

end SkillContextService

end Ochestrate
