import Ochestrate.Context.Budget
import Ochestrate.Tools.Base

/-!
# Prompt assembly

`app/prompts/assembly.py`: seven labelled sections in a fixed order, cut to the
budget at the end. Of a skill's description the first forty words are listed.
`split_assemble` says which words of the rendered sections are left; the task
comes after the policy, the skills and the tools, and
`task_prefix_assemble_iff` says when all four are whole.
-/

namespace Ochestrate

structure PromptAssemblyService where
  budget : TokenBudgetManager
  /-- There is a template class, and so a template. -/
  template : Bool

namespace PromptAssemblyService

/-- The input of `assemble`, with tools that may have any fields. -/
structure PromptAssemblyInput where
  systemPolicy : String
  task : String
  evidence : String
  shortMemory : String
  longMemory : String
  tools : List (Dict String Json)
  skills : List SkillContextItem
  maxSkillItems : Int
  skillContextMode : String := "auto"

variable (B : Builtins) (service : PromptAssemblyService) (data : PromptAssemblyInput)

/-! ## Sections -/

/-- The stripped description, or its first forty words. -/
def skillDescription (item : SkillContextItem) : String :=
  let description := strip item.description
  if 40 < TokenBudgetManager.estimateTokens description then TokenBudgetManager.truncate description 40 else description

/-- The line of a skill with its description. -/
def skillLine (item : SkillContextItem) (description : String) : String :=
  "- name: " ++ item.name ++ "; description: " ++ description ++ "; skill_path: " ++ item.skillPath

def selectedSkills : List SkillContextItem :=
  if data.skillContextMode = "force_all" then data.skills else sliceTo data.maxSkillItems data.skills

def skillLines : List String := (selectedSkills data).map fun item => skillLine item (skillDescription item)

/-- `_skills_section` -/
def skillsSection : String := if data.skills = [] then "- none" else joinLines (skillLines data)

def toolLine (tool : Dict String Json) : String :=
  "- " ++ B.str ((tool.get? "name").getD .null) ++ ": " ++ B.str ((tool.get? "description").getD (.str "")) ++
    "; required_roles=" ++ B.str ((tool.get? "required_roles").getD (.arr []))

/-- `_tools_section` -/
def toolsSection : String := if data.tools = [] then "- none" else joinLines (data.tools.map (toolLine B))

/-- The labels of the template, and the names of the arguments in capitals. -/
def labels : Bool → List String
  | true => ["SYSTEM_POLICY", "AVAILABLE_SKILLS", "AVAILABLE_TOOLS", "TASK", "EVIDENCE", "SHORT_MEMORY", "LONG_MEMORY"]
  | false => ["SYSTEM_POLICY", "SKILLS", "TOOLS", "TASK", "EVIDENCE", "SHORT_MEMORY", "LONG_MEMORY"]

/-- `_render_template`: the template ends its last line. -/
def rendered : String :=
  labelled ((labels service.template).zip [data.systemPolicy, skillsSection data, toolsSection B data, data.task,
    data.evidence, data.shortMemory, data.longMemory]) ++ if service.template then "\n" else ""

def assemble : String :=
  if TokenBudgetManager.estimateTokens (rendered B service data) ≤ service.budget.maxTokens then rendered B service data
  else TokenBudgetManager.truncate (rendered B service data) service.budget.maxTokens

/-! ## Words -/

/-- A description has the first forty words of the skill's. -/
theorem split_skillDescription (item : SkillContextItem) :
    split (skillDescription item) = (split item.description).take 40 := by
  have hfit : skillDescription item = TokenBudgetManager.truncate (strip item.description) 40 := by
    by_cases h : 40 < TokenBudgetManager.estimateTokens (strip item.description)
    · exact if_pos h
    · rw [TokenBudgetManager.truncate, if_pos (by omega)]
      exact if_neg h
  rw [hfit, TokenBudgetManager.split_truncate, split_strip]
  rfl

/-- A prompt that fits is not changed by cutting it. -/
theorem assemble_eq_truncate :
    assemble B service data = TokenBudgetManager.truncate (rendered B service data) service.budget.maxTokens := by
  unfold assemble
  split
  · next hfits => exact (if_pos hfits).symm
  · rfl

/-- The words that are left are the first of the sections, as many as the budget has. -/
theorem split_assemble :
    split (assemble B service data) =
      (split (rendered B service data)).take (max service.budget.maxTokens 1).toNat := by
  rw [assemble_eq_truncate, TokenBudgetManager.split_truncate]

/-- The words in front of the task: three sections and the label of the fourth. -/
def beforeTask : List String :=
  (((labels service.template).take 3).zip [data.systemPolicy, skillsSection data, toolsSection B data]).flatMap
    (fun entry => ("[" ++ entry.1 ++ "]") :: split entry.2) ++ ["[TASK]"]

theorem length_beforeTask :
    (beforeTask B service data).length = 4 + (split data.systemPolicy).length + (split (skillsSection data)).length +
      (split (toolsSection B data)).length := by
  cases h : service.template with
  | true =>
    simp [beforeTask, h, labels]
    omega
  | false =>
    simp [beforeTask, h, labels]
    omega

/-- The task follows the words in front of it. -/
theorem prefix_split_rendered : beforeTask B service data ++ split data.task <+: split (rendered B service data) := by
  have hlabels : ∀ template, (labels template).all isLabel = true := by decide
  refine ⟨["EVIDENCE", "SHORT_MEMORY", "LONG_MEMORY"].zip [data.evidence, data.shortMemory, data.longMemory] |>.flatMap
    fun entry => ("[" ++ entry.1 ++ "]") :: split entry.2, ?_⟩
  have hend : split (rendered B service data) =
      split (labelled ((labels service.template).zip [data.systemPolicy, skillsSection data, toolsSection B data,
        data.task, data.evidence, data.shortMemory, data.longMemory])) := by
    refine split_append_blank _ ?_
    cases service.template <;> decide
  cases h : service.template with
  | true =>
    rw [hend, h, split_labelled (hlabels true)]
    simp [beforeTask, h, labels]
  | false =>
    rw [hend, h, split_labelled (hlabels false)]
    simp [beforeTask, h, labels]

theorem mem_skills_of_mem_selectedSkills {item : SkillContextItem} (h : item ∈ selectedSkills data) :
    item ∈ data.skills := by
  unfold selectedSkills sliceTo at h
  split at h
  · exact h
  · split at h
    · exact List.mem_of_mem_take h
    · exact List.mem_of_mem_take h

/-- The line of each listed skill has at most forty words of its description. -/
theorem exists_of_mem_skillLines {line : String} (h : line ∈ skillLines data) :
    ∃ item ∈ data.skills, ∃ description, line = skillLine item description ∧
      (split description).length ≤ 40 ∧ split description <+: split item.description := by
  obtain ⟨item, hitem, rfl⟩ := List.mem_map.1 h
  refine ⟨item, mem_skills_of_mem_selectedSkills data hitem, skillDescription item, rfl, ?_, ?_⟩
  · rw [split_skillDescription, List.length_take]
    omega
  · rw [split_skillDescription]
    exact List.take_prefix ..

/-- The prompt is in the budget, and is what fits of the sections. -/
theorem assemble_within_budget (h : 1 ≤ service.budget.maxTokens) :
    TokenBudgetManager.estimateTokens (assemble B service data) ≤ service.budget.maxTokens ∧
      (TokenBudgetManager.estimateTokens (rendered B service data) ≤ service.budget.maxTokens →
        assemble B service data = rendered B service data) ∧
      (service.budget.maxTokens < TokenBudgetManager.estimateTokens (rendered B service data) →
        split (assemble B service data) =
          (split (rendered B service data)).take service.budget.maxTokens.toNat) ∧
      ∀ line ∈ skillLines data, ∃ item ∈ data.skills, ∃ description, line = skillLine item description ∧
        (split description).length ≤ 40 ∧ split description <+: split item.description := by
  have hwords := split_assemble B service data
  rw [max_eq_left h] at hwords
  refine ⟨?_, fun hfits => if_pos hfits, fun _ => hwords, fun line => exists_of_mem_skillLines data⟩
  rw [assemble_eq_truncate]
  exact TokenBudgetManager.estimateTokens_truncate_le h _

/-- A request with one skill. -/
def sampleInput : PromptAssemblyInput where
  systemPolicy := "Policy"
  task := "Summarize it"
  evidence := ""
  shortMemory := ""
  longMemory := ""
  tools := []
  skills := [{ name := "KB QA", description := "Answer with citations.", skillPath := "/kb_qa.json" }]
  maxSkillItems := 100

theorem assemble_within_budget_sample :
    TokenBudgetManager.estimateTokens (assemble asciiBuiltins ⟨⟨10⟩, true⟩ sampleInput) ≤ (10 : Int) ∧
      split (assemble asciiBuiltins ⟨⟨10⟩, true⟩ sampleInput) =
        (split (rendered asciiBuiltins ⟨⟨10⟩, true⟩ sampleInput)).take 10 := by
  obtain ⟨hbudget, -, htrimmed, -⟩ := assemble_within_budget asciiBuiltins ⟨⟨10⟩, true⟩ sampleInput (by decide)
  exact ⟨hbudget, htrimmed (by decide +kernel)⟩

/-! ## The task -/

/-- The budget has the task and all in front of it exactly if the prompt has; then the task is in the prompt. -/
theorem task_prefix_assemble_iff :
    (beforeTask B service data ++ split data.task <+: split (assemble B service data) ↔
      4 + (split data.systemPolicy).length + (split (skillsSection data)).length +
        (split (toolsSection B data)).length + (split data.task).length ≤ service.budget.maxTokens) ∧
    (4 + (split data.systemPolicy).length + (split (skillsSection data)).length +
        (split (toolsSection B data)).length + (split data.task).length ≤ service.budget.maxTokens →
      split data.task <:+: split (assemble B service data)) := by
  have hlength := length_beforeTask B service data
  have hfront : beforeTask B service data ++ split data.task <+: split (assemble B service data) ↔
      4 + (split data.systemPolicy).length + (split (skillsSection data)).length +
        (split (toolsSection B data)).length + (split data.task).length ≤ service.budget.maxTokens := by
    rw [split_assemble, List.prefix_take_iff, List.length_append, hlength]
    constructor
    · intro h
      omega
    · intro h
      exact ⟨prefix_split_rendered B service data, by omega⟩
  refine ⟨hfront, fun hfits => ?_⟩
  exact (List.suffix_append _ _).isInfix.trans (hfront.2 hfits).isInfix

theorem task_prefix_assemble_iff_sample :
    (4 + 1 + (split (skillsSection sampleInput)).length + (split (toolsSection asciiBuiltins sampleInput)).length + 2 ≤
        (4096 : Int)) ∧
      split "Summarize it" <:+: split (assemble asciiBuiltins ⟨⟨4096⟩, true⟩ sampleInput) := by
  have hfits : 4 + 1 + (split (skillsSection sampleInput)).length +
      (split (toolsSection asciiBuiltins sampleInput)).length + 2 ≤ (4096 : Int) := by decide +kernel
  exact ⟨hfits, (task_prefix_assemble_iff asciiBuiltins ⟨⟨4096⟩, true⟩ sampleInput).2 hfits⟩

/-- The policy, the task and the labels fit, and the skills leave no room for the task. -/
theorem exists_task_dropped :
    ¬ ∀ (B : Builtins) (service : PromptAssemblyService) (data : PromptAssemblyInput),
      7 + (split data.systemPolicy).length + (split data.task).length ≤ service.budget.maxTokens →
      split data.task <:+: split (assemble B service data) := by
  intro h
  have htask := h asciiBuiltins ⟨⟨10⟩, true⟩ sampleInput (by decide)
  -- The first ten words end in the line of the skill.
  obtain ⟨rest, hrest⟩ := prefix_split_rendered asciiBuiltins ⟨⟨10⟩, true⟩ sampleInput
  rw [split_assemble, ← hrest, List.append_assoc, List.take_append_of_le_length (by decide +kernel)] at htask
  revert htask
  decide +kernel

end PromptAssemblyService

end Ochestrate
