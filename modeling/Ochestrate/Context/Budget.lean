import Ochestrate.Framework.Words
import Ochestrate.Orchestration.Service

/-!
# The token budget of a context

`app/context/`: a token is a word. `TokenBudgetManager` counts the words of a
text and cuts it, `Summarizer` cuts a text to a number of words and writes
`...` after them, and `ContextManager` joins five labelled layers and summarises
them if they are over the budget. `split_truncate` says what words a cut text
has. `...` is one more word: a context is in the budget exactly if its layers
are (`estimateTokens_buildContext_iff`).
-/

namespace Ochestrate

structure TokenBudgetManager where
  maxTokens : Int
  deriving DecidableEq

namespace TokenBudgetManager

def estimateTokens (text : String) : Nat := if text = "" then 0 else max 1 (split text).length

def truncate (text : String) (remainingTokens : Int) : String :=
  if estimateTokens text ≤ remainingTokens then text
  else " ".intercalate (sliceTo (max remainingTokens 1) (split text))

/-- A budget of at least one token is one of words. -/
theorem estimateTokens_le_iff {n : Int} (h : 1 ≤ n) (text : String) :
    estimateTokens text ≤ n ↔ (split text).length ≤ n := by
  unfold estimateTokens
  split
  · next hempty =>
    have hwords : (split text).length = 0 := by
      rw [hempty]
      rfl
    omega
  · omega

/-- The words of a cut text are the first words of the text, one at least. -/
theorem split_truncate (text : String) (n : Int) : split (truncate text n) = (split text).take (max n 1).toNat := by
  unfold truncate
  split
  · next hfits =>
    have hlength : (split text).length ≤ max n 1 := by
      rw [← estimateTokens_le_iff (le_max_right n 1)]
      exact le_max_of_le_left hfits
    exact (List.take_of_length_le (by omega)).symm
  · rw [sliceTo_of_nonneg (by omega)]
    exact split_join fun w hw => List.mem_of_mem_take hw

theorem estimateTokens_truncate_le {n : Int} (h : 1 ≤ n) (text : String) : estimateTokens (truncate text n) ≤ n := by
  rw [estimateTokens_le_iff h, split_truncate, List.length_take]
  omega

end TokenBudgetManager

/-- `Summarizer.summarize(text, max_words)` -/
def Summarizer.summarize (text : String) (maxWords : Int) : String :=
  let words := split text
  if words.length ≤ maxWords then text else " ".intercalate (sliceTo maxWords words) ++ " ..."

/-- The words of a summary. -/
theorem Summarizer.split_summarize {maxWords : Int} (hmax : 0 ≤ maxWords) {text : String}
    (h : maxWords < (split text).length) :
    split (summarize text maxWords) = (split text).take maxWords.toNat ++ ["..."] := by
  rw [summarize, if_neg (by omega), split_append (.inr ⟨' ', rfl, by decide⟩), sliceTo_of_nonneg hmax,
    split_join fun w hw => List.mem_of_mem_take hw]
  rfl

/-- The words of the five texts. -/
def ContextLayers.words (layers : ContextLayers) : List String :=
  split layers.systemPolicy ++ split layers.taskContext ++ split layers.retrievalEvidence ++
    split layers.shortMemory ++ split layers.longMemory

namespace ContextManager

/-- The five sections, in their order. -/
def composed (layers : ContextLayers) : String :=
  labelled [("SYSTEM", layers.systemPolicy), ("TASK", layers.taskContext), ("EVIDENCE", layers.retrievalEvidence),
    ("SHORT_MEMORY", layers.shortMemory), ("LONG_MEMORY", layers.longMemory)]

/-- `build_context` -/
def buildContext (budget : TokenBudgetManager) (layers : ContextLayers) : String :=
  if TokenBudgetManager.estimateTokens (composed layers) ≤ budget.maxTokens then composed layers
  else Summarizer.summarize (composed layers) budget.maxTokens

/-- The sections are kept as they are if they fit. -/
theorem buildContext_eq {budget : TokenBudgetManager} (hbudget : 1 ≤ budget.maxTokens) (layers : ContextLayers) :
    buildContext budget layers =
      if (split (composed layers)).length ≤ budget.maxTokens then composed layers
      else Summarizer.summarize (composed layers) budget.maxTokens :=
  if_congr (TokenBudgetManager.estimateTokens_le_iff hbudget _) rfl rfl

/-- The labels are five words. -/
theorem length_split_composed (layers : ContextLayers) :
    (split (composed layers)).length = layers.words.length + 5 := by
  have hlabels : ["SYSTEM", "TASK", "EVIDENCE", "SHORT_MEMORY", "LONG_MEMORY"].all isLabel = true := by decide
  rw [composed, split_labelled hlabels, ContextLayers.words]
  simp only [List.flatMap_cons, List.flatMap_nil, List.append_nil, List.length_append, List.length_cons]
  omega

/-- A summary has one word more than the budget. -/
theorem length_split_buildContext {budget : TokenBudgetManager} (hbudget : 1 ≤ budget.maxTokens)
    {layers : ContextLayers} (h : budget.maxTokens < layers.words.length + 5) :
    (split (buildContext budget layers)).length = budget.maxTokens + 1 := by
  have hlength := length_split_composed layers
  rw [buildContext_eq hbudget, if_neg (by omega), Summarizer.split_summarize (by omega) (by omega), List.length_append,
    List.length_take, List.length_singleton]
  omega

/-- The context is in the budget exactly if the layers and their labels are. -/
theorem estimateTokens_buildContext_iff (budget : TokenBudgetManager) (layers : ContextLayers)
    (hbudget : 1 ≤ budget.maxTokens) :
    TokenBudgetManager.estimateTokens (buildContext budget layers) ≤ budget.maxTokens ↔
      layers.words.length + 5 ≤ budget.maxTokens := by
  have hlength := length_split_composed layers
  rw [TokenBudgetManager.estimateTokens_le_iff hbudget]
  by_cases h : layers.words.length + 5 ≤ budget.maxTokens
  · rw [buildContext_eq hbudget, if_pos (by omega)]
    omega
  · have hover := length_split_buildContext hbudget (Int.not_le.1 h)
    omega

theorem estimateTokens_buildContext_iff_4096 :
    (1 : Int) ≤ 4096 ∧
      (TokenBudgetManager.estimateTokens (buildContext ⟨4096⟩ ⟨"policy", "a task", "", "", "likes tables"⟩) ≤ (4096 : Int) ↔
        (ContextLayers.words ⟨"policy", "a task", "", "", "likes tables"⟩).length + 5 ≤ (4096 : Int)) :=
  ⟨by decide, estimateTokens_buildContext_iff ⟨4096⟩ ⟨"policy", "a task", "", "", "likes tables"⟩ (by decide)⟩

/-- A budget of six words, and a context of seven. -/
theorem exists_over_budget :
    ¬ ∀ (budget : TokenBudgetManager) (layers : ContextLayers), 1 ≤ budget.maxTokens →
      TokenBudgetManager.estimateTokens (buildContext budget layers) ≤ budget.maxTokens := by
  intro h
  have hfits := h ⟨6⟩ ⟨"policy", "a task", "", "", "likes tables"⟩ (by decide)
  rw [TokenBudgetManager.estimateTokens_le_iff (by decide)] at hfits
  have hover : (split (buildContext ⟨6⟩ ⟨"policy", "a task", "", "", "likes tables"⟩)).length = (6 : Int) + 1 :=
    length_split_buildContext (by decide) (by decide)
  rw [hover] at hfits
  exact absurd hfits (by decide)

end ContextManager

end Ochestrate
