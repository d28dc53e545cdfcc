import Ochestrate.Framework.Rounding
import Ochestrate.Orchestration.Service

/-!
# The reviewer

`app/agents/reviewer.py`: a confidence in floats from the numbers of citations
and actions and the length of the answer. It does not decrease when any of them
grows (`review_mono`). For an answer that is not empty it is at least the float
`0.4`, so the orchestrator counts a low confidence exactly for empty answers
(`review_low_iff`).
-/

namespace Ochestrate

namespace ReviewerAgent

/-- The float that a literal denotes. -/
def literal (q : Rat) : Rat := binary64.round q

/-- `if citations: base_confidence += min(0.4, len(citations) * 0.08)` -/
def withCitations (citations : List Citation) (base : Rat) : Rat :=
  if citations = [] then base
  else binary64.add base (min (literal (2 / 5)) (binary64.mul (binary64.round citations.length) (literal (2 / 25))))

/-- `if actions_count > 0: base_confidence += 0.05` -/
def withActions (actionsCount : Nat) (base : Rat) : Rat :=
  if 0 < actionsCount then binary64.add base (literal (1 / 20)) else base

/-- `if len(answer) < 20: base_confidence -= 0.1` -/
def withLength (answer : String) (base : Rat) : Rat :=
  if answer.length < 20 then binary64.sub base (literal (1 / 10)) else base

def baseConfidence (answer : String) (citations : List Citation) (actionsCount : Nat) : Rat :=
  withLength answer (withActions actionsCount (withCitations citations (literal (1 / 2))))

def review (answer : String) (citations : List Citation) (actionsCount : Nat) : String × Rat :=
  if answer = "" then ("I do not have enough evidence to answer reliably.", literal (1 / 10))
  else (answer, max 0 (min (baseConfidence answer citations actionsCount) 1))

/-! ## The parts of the confidence -/

variable {answer answer' : String} {citations citations' : List Citation} {actionsCount actionsCount' : Nat} {base : Rat}

theorem literal_nonneg {q : Rat} (h : 0 ≤ q) : 0 ≤ literal q := binary64.round_nonneg h

/-- A float added to one half gives at least one half. -/
theorem half_le_add (hbase : literal (1 / 2) ≤ base) {x : Rat} (hx : 0 ≤ x) : literal (1 / 2) ≤ binary64.add base x := by
  have hhalf : binary64.round (literal (1 / 2)) = literal (1 / 2) := by decide +kernel
  exact BinaryFormat.le_round hhalf (by linarith)

theorem citationBonus_nonneg (n : Nat) :
    0 ≤ min (literal (2 / 5)) (binary64.mul (binary64.round n) (literal (2 / 25))) := by
  refine le_min (literal_nonneg (by norm_num)) (binary64.round_nonneg (mul_nonneg ?_ (literal_nonneg (by norm_num))))
  exact binary64.round_nonneg (Nat.cast_nonneg n)

theorem half_le_withCitations : literal (1 / 2) ≤ withCitations citations (literal (1 / 2)) := by
  unfold withCitations
  split
  · exact le_rfl
  · exact half_le_add le_rfl (citationBonus_nonneg _)

theorem half_le_withActions (hbase : literal (1 / 2) ≤ base) : literal (1 / 2) ≤ withActions actionsCount base := by
  unfold withActions
  split
  · exact half_le_add hbase (literal_nonneg (by norm_num))
  · exact hbase

theorem lowConfidence_le_withLength (hbase : literal (1 / 2) ≤ base) : lowConfidence ≤ withLength answer base := by
  have hshort : binary64.sub (literal (1 / 2)) (literal (1 / 10)) = lowConfidence := by decide +kernel
  have hlong : lowConfidence ≤ literal (1 / 2) := by decide +kernel
  unfold withLength
  split
  · rw [← hshort]
    exact binary64.round_mono (by linarith)
  · exact hlong.trans hbase

/-- Whatever the citations and the actions, an answer has a confidence of `0.4`. -/
theorem lowConfidence_le_base (answer : String) (citations : List Citation) (actionsCount : Nat) :
    lowConfidence ≤ baseConfidence answer citations actionsCount :=
  lowConfidence_le_withLength (half_le_withActions half_le_withCitations)

theorem withCitations_mono (h : citations.length ≤ citations'.length) :
    withCitations citations (literal (1 / 2)) ≤ withCitations citations' (literal (1 / 2)) := by
  by_cases hnil : citations = []
  · rw [withCitations, if_pos hnil]
    exact half_le_withCitations
  · have hnil' : citations' ≠ [] := by
      intro heq
      rw [heq, List.length_nil, Nat.le_zero, List.length_eq_zero_iff] at h
      exact hnil h
    have hlength : binary64.round citations.length ≤ binary64.round citations'.length :=
      binary64.round_mono (Nat.cast_le.2 h)
    have hbonus : binary64.mul (binary64.round citations.length) (literal (2 / 25)) ≤
        binary64.mul (binary64.round citations'.length) (literal (2 / 25)) :=
      binary64.round_mono (mul_le_mul_of_nonneg_right hlength (literal_nonneg (by norm_num)))
    rw [withCitations, withCitations, if_neg hnil, if_neg hnil']
    exact binary64.round_mono (add_le_add le_rfl (min_le_min le_rfl hbonus))

/-- A bonus does not lower a confidence that is a float. -/
theorem le_add (hbase : binary64.round base = base) {x : Rat} (hx : 0 ≤ x) : base ≤ binary64.add base x :=
  BinaryFormat.le_round hbase (by linarith)

theorem round_withCitations :
    binary64.round (withCitations citations (literal (1 / 2))) = withCitations citations (literal (1 / 2)) := by
  unfold withCitations
  split
  · exact binary64.round_round _
  · exact binary64.round_round _

theorem withActions_mono (hactions : actionsCount ≤ actionsCount') {base' : Rat} (hfloat : binary64.round base' = base')
    (hbase : base ≤ base') : withActions actionsCount base ≤ withActions actionsCount' base' := by
  unfold withActions
  split_ifs with h h'
  · exact binary64.round_mono (add_le_add hbase le_rfl)
  · omega
  · exact hbase.trans (le_add hfloat (literal_nonneg (by norm_num)))
  · exact hbase

theorem round_withActions (hfloat : binary64.round base = base) :
    binary64.round (withActions actionsCount base) = withActions actionsCount base := by
  unfold withActions
  split
  · exact binary64.round_round _
  · exact hfloat

theorem withLength_mono (hlength : answer.length ≤ answer'.length) {base' : Rat} (hfloat : binary64.round base' = base')
    (hbase : base ≤ base') : withLength answer base ≤ withLength answer' base' := by
  unfold withLength
  split_ifs with h h'
  · exact binary64.round_mono (sub_le_sub_right hbase _)
  · have hmalus : 0 ≤ literal (1 / 10) := literal_nonneg (by norm_num)
    exact BinaryFormat.round_le hfloat (by linarith)
  · omega
  · exact hbase

theorem baseConfidence_mono (hlength : answer.length ≤ answer'.length)
    (hcitations : citations.length ≤ citations'.length) (hactions : actionsCount ≤ actionsCount') :
    baseConfidence answer citations actionsCount ≤ baseConfidence answer' citations' actionsCount' :=
  withLength_mono hlength (round_withActions round_withCitations)
    (withActions_mono hactions round_withCitations (withCitations_mono hcitations))

/-! ## The confidence -/

/-- The confidence of an answer that is not empty. -/
theorem lowConfidence_le_review (h : answer ≠ "") : lowConfidence ≤ (review answer citations actionsCount).2 := by
  have hone : lowConfidence ≤ 1 := by decide +kernel
  rw [review, if_neg h]
  exact (le_min (lowConfidence_le_base answer citations actionsCount) hone).trans (le_max_right ..)

theorem review_empty : (review "" citations actionsCount).2 < lowConfidence := by
  have hliteral : literal (1 / 10) < lowConfidence := by decide +kernel
  rw [review, if_pos rfl]
  exact hliteral

/-- A confidence is low exactly for an empty answer. -/
theorem review_low_iff : (review answer citations actionsCount).2 < lowConfidence ↔ answer = "" := by
  constructor
  · intro hlow
    by_contra h
    exact absurd hlow (not_lt.2 (lowConfidence_le_review h))
  · rintro rfl
    exact review_empty

theorem length_eq_zero_of_le (h : answer.length ≤ answer'.length) (hempty : answer' = "") : answer = "" := by
  subst hempty
  exact String.length_eq_zero_iff.1 (Nat.le_zero.1 h)

/-- A longer answer with more citations and more actions has no lower confidence. -/
theorem review_mono (answer answer' : String) (citations citations' : List Citation) (actionsCount actionsCount' : Nat)
    (hlength : answer.length ≤ answer'.length) (hcitations : citations.length ≤ citations'.length)
    (hactions : actionsCount ≤ actionsCount') :
    (review answer citations actionsCount).2 ≤ (review answer' citations' actionsCount').2 := by
  by_cases hempty : answer = ""
  · by_cases hempty' : answer' = ""
    · rw [hempty, hempty', review, review, if_pos rfl, if_pos rfl]
    · subst hempty
      exact review_empty.le.trans (lowConfidence_le_review hempty')
  · have hempty' : answer' ≠ "" := fun h => hempty (length_eq_zero_of_le hlength h)
    rw [review, review, if_neg hempty, if_neg hempty']
    exact max_le_max le_rfl (min_le_min (baseConfidence_mono hlength hcitations hactions) le_rfl)

/-- Two actions and a longer answer. -/
theorem review_mono_hello : (review "hello" [] 0).2 ≤ (review "hello to everybody here" [] 2).2 :=
  review_mono "hello" "hello to everybody here" [] [] 0 2 (by decide) le_rfl (by decide)

end ReviewerAgent

end Ochestrate
