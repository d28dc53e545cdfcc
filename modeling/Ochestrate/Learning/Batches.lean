import Mathlib.Data.List.Induction
import Ochestrate.Framework.Batches
import Ochestrate.Learning.Pipeline

/-!
# The two modes of the pipeline

Without a repository `process_batch` adds the buffer to the total and replaces
the ratio by that of the buffer; with one it counts all records. For one tenant
the mode with an in-memory repository always returns the statistics of all items
(`processBatch_overRepository`), and the other mode does after every batch
exactly if all batches have one fraction of correct items (`statistics_iff`).
-/

namespace Ochestrate

/-- Numbers without rounding. -/
def Floats.exact : Floats Rat where
  ofNat n := n
  ratio m n := m / n
  addNat x n := x + n

namespace EnterpriseLearningPipeline

/-- The calls of the pipeline. -/
inductive Call
  | submitFeedback (item : FeedbackRequest)
  | processBatch
  deriving DecidableEq

/-- The pipeline after a call. -/
def step (pipeline : EnterpriseLearningPipeline Rat) : Call → EnterpriseLearningPipeline Rat
  | .submitFeedback item => pipeline.submitFeedback item
  | .processBatch => (pipeline.processBatch .exact).2

/-- The pipeline after calls in turn. -/
def after (pipeline : EnterpriseLearningPipeline Rat) (calls : List Call) : EnterpriseLearningPipeline Rat :=
  calls.foldl step pipeline

/-- The pipeline without a repository. -/
def plain : EnterpriseLearningPipeline Rat := {}

/-- The pipeline with an in-memory repository. -/
def overRepository : EnterpriseLearningPipeline Rat := { repository := some (.memory []) }

/-- The items that the calls submit. -/
def submitted (calls : List Call) : List FeedbackRequest :=
  calls.filterMap fun
    | .submitFeedback item => some item
    | .processBatch => none

/-- The number of items, and the fraction of them that are correct. -/
def statistics (items : List FeedbackRequest) : Dict String Rat :=
  (Dict.empty.set "feedback.total" (items.length : Rat)).set "feedback.correct_ratio" (fraction (·.isCorrect) items)

/-! ## Batches -/

/-- A call, as it makes batches. -/
def stepBatched (s : Batched FeedbackRequest) : Call → Batched FeedbackRequest
  | .submitFeedback item => s.submit item
  | .processBatch => s.flush

def batched (calls : List Call) : Batched FeedbackRequest := calls.foldl stepBatched .empty

/-- The items between two calls of `process_batch`, where there are any. -/
def batches (calls : List Call) : List (List FeedbackRequest) := (batched calls).flushed

theorem after_concat (pipeline : EnterpriseLearningPipeline Rat) (calls : List Call) (call : Call) :
    pipeline.after (calls ++ [call]) = (pipeline.after calls).step call :=
  List.foldl_concat ..

theorem batched_concat (calls : List Call) (call : Call) :
    batched (calls ++ [call]) = stepBatched (batched calls) call :=
  List.foldl_concat ..

theorem submitted_concat (calls : List Call) (item : FeedbackRequest) :
    submitted (calls ++ [.submitFeedback item]) = submitted calls ++ [item] :=
  List.filterMap_append ..

theorem submitted_concat_processBatch (calls : List Call) :
    submitted (calls ++ [.processBatch]) = submitted calls :=
  (List.filterMap_append ..).trans (List.append_nil _)

theorem items_batched (calls : List Call) : (batched calls).items = submitted calls := by
  induction calls using List.reverseRecOn with
  | nil => rfl
  | append_singleton calls call ih =>
    rw [batched_concat]
    cases call with
    | submitFeedback item => rw [stepBatched, Batched.items_submit, ih, submitted_concat]
    | processBatch => rw [stepBatched, Batched.items_flush, ih, submitted_concat_processBatch]

/-! ## Without a repository -/

/-- The statistics that are kept: the ratio is that of the last batch. -/
def keptStats (batches : List (List FeedbackRequest)) : Dict String Rat :=
  match batches.getLast? with
  | none => .empty
  | some last =>
    (Dict.empty.set "feedback.total" (batches.flatten.length : Rat)).set "feedback.correct_ratio"
      (fraction (·.isCorrect) last)

/-- The buffer and the statistics are those of the batches. -/
structure Buffers (pipeline : EnterpriseLearningPipeline Rat) (s : Batched FeedbackRequest) : Prop where
  repository : pipeline.repository = none
  feedbackBuffer : pipeline.feedbackBuffer = s.pending
  stats : pipeline.stats = keptStats s.flushed

/-- Both values are replaced. -/
theorem set_set (total total' ratio ratio' : Rat) :
    ((((Dict.empty : Dict String Rat).set "feedback.total" total).set "feedback.correct_ratio" ratio).set
        "feedback.total" total').set "feedback.correct_ratio" ratio' =
      (Dict.empty.set "feedback.total" total').set "feedback.correct_ratio" ratio' :=
  Dict.ext_entries rfl

/-- One more batch: the total grows, and the ratio is replaced. -/
theorem keptStats_concat (batches : List (List FeedbackRequest)) (last : List FeedbackRequest) :
    ((keptStats batches).set "feedback.total"
        (((keptStats batches).get? "feedback.total").getD 0 + (last.length : Rat))).set
      "feedback.correct_ratio" (fraction (·.isCorrect) last) = keptStats (batches ++ [last]) := by
  have hlength : (((batches ++ [last]).flatten.length : Nat) : Rat) = (batches.flatten.length : Rat) + last.length := by
    rw [List.flatten_concat, List.length_append, Nat.cast_add]
  simp only [keptStats, List.getLast?_concat, hlength]
  rcases List.eq_nil_or_concat batches with rfl | ⟨first, previous, rfl⟩
  · rfl
  · rw [List.concat_eq_append, List.getLast?_concat]
    exact set_set ..

/-- A call returns the statistics of the batches, the pending items among them. -/
theorem Buffers.processBatch {pipeline : EnterpriseLearningPipeline Rat} {s : Batched FeedbackRequest}
    (h : Buffers pipeline s) :
    (pipeline.processBatch .exact).1 = keptStats s.flush.flushed ∧ Buffers (pipeline.processBatch .exact).2 s.flush := by
  by_cases hpending : s.pending = []
  · have hprocess : pipeline.processBatch .exact = (pipeline.stats, pipeline) := by
      simp only [EnterpriseLearningPipeline.processBatch, h.repository, h.feedbackBuffer, hpending, ↓reduceIte]
    rw [hprocess, Batched.flush_of_nil hpending]
    exact ⟨h.stats, h⟩
  · have hprocess : pipeline.processBatch .exact = (keptStats s.flush.flushed,
        { pipeline with stats := keptStats s.flush.flushed, feedbackBuffer := [] }) := by
      rw [Batched.flushed_flush hpending, ← keptStats_concat]
      simp only [EnterpriseLearningPipeline.processBatch, h.repository, h.feedbackBuffer, h.stats, hpending, ↓reduceIte]
      rfl
    rw [hprocess]
    exact ⟨rfl, h.repository, (s.pending_flush).symm, rfl⟩

theorem Buffers.step {pipeline : EnterpriseLearningPipeline Rat} {s : Batched FeedbackRequest} (h : Buffers pipeline s)
    (call : Call) : Buffers (pipeline.step call) (stepBatched s call) := by
  cases call with
  | submitFeedback item =>
    have hsubmit : pipeline.submitFeedback item =
        { pipeline with lastTenantId := item.tenantId, feedbackBuffer := pipeline.feedbackBuffer ++ [item] } := by
      simp only [EnterpriseLearningPipeline.submitFeedback, h.repository]
    rw [EnterpriseLearningPipeline.step, hsubmit]
    exact ⟨h.repository, congrArg (· ++ [item]) h.feedbackBuffer, h.stats⟩
  | processBatch => exact h.processBatch.2

theorem buffers_after (calls : List Call) : Buffers (plain.after calls) (batched calls) := by
  induction calls using List.reverseRecOn with
  | nil => exact ⟨rfl, rfl, rfl⟩
  | append_singleton calls call ih =>
    rw [after_concat, batched_concat]
    exact ih.step call

theorem processBatch_plain (calls : List Call) :
    ((plain.after calls).processBatch .exact).1 = keptStats (batches (calls ++ [.processBatch])) := by
  rw [batches, batched_concat]
  exact (buffers_after calls).processBatch.1

/-- The statistics kept are those of all items exactly if the last batch has their fraction. -/
theorem keptStats_eq_iff {s : Batched FeedbackRequest} (hne : s.items ≠ []) :
    keptStats s.flush.flushed = statistics s.items ↔ s.flush.LastEven (·.isCorrect) := by
  rw [← s.flatten_flush] at hne ⊢
  rw [Batched.LastEven]
  rcases List.eq_nil_or_concat s.flush.flushed with hnil | ⟨first, last, hconcat⟩
  · rw [hnil] at hne
    exact absurd rfl hne
  · rw [hconcat, List.concat_eq_append, keptStats, List.getLast?_concat]
    simp only [Option.mem_some_iff, forall_eq']
    constructor
    · intro h
      have hratio := congrArg (Dict.get? · "feedback.correct_ratio") h
      dsimp only [statistics] at hratio
      rw [Dict.get?_set_self, Dict.get?_set_self] at hratio
      exact Option.some.inj hratio
    · intro h
      rw [h]
      rfl

/-! ## With a repository -/

/-- The records are the items, all of one tenant. -/
structure Records (tenantId : Option String) (pipeline : EnterpriseLearningPipeline Rat) (items : List FeedbackRequest) :
    Prop where
  repository : pipeline.repository = some (.memory items)
  lastTenantId : items ≠ [] → pipeline.lastTenantId = tenantId

theorem records_after {tenantId : Option String} {calls : List Call}
    (h : ∀ item ∈ submitted calls, item.tenantId = tenantId) :
    Records tenantId (overRepository.after calls) (submitted calls) := by
  induction calls using List.reverseRecOn with
  | nil => exact ⟨rfl, fun hne => absurd rfl hne⟩
  | append_singleton calls call ih =>
    rw [after_concat]
    cases call with
    | submitFeedback item =>
      rw [submitted_concat] at h ⊢
      have hrecords := ih fun item' hitem' => h item' (List.mem_append_left _ hitem')
      have hitem := h item (List.mem_append_right _ (List.mem_singleton_self item))
      rw [step, submitFeedback]
      simp only [hrecords.repository]
      exact ⟨rfl, fun _ => hitem⟩
    | processBatch =>
      rw [submitted_concat_processBatch] at h ⊢
      have hrecords := ih h
      rw [step, processBatch]
      simp only [hrecords.repository]
      exact hrecords

/-- With an in-memory repository, the statistics of all items of the tenant are
returned. -/
theorem processBatch_overRepository {tenantId : Option String} {calls : List Call}
    (h : ∀ item ∈ submitted calls, item.tenantId = tenantId) (hne : submitted calls ≠ []) :
    ((overRepository.after calls).processBatch .exact).1 = statistics (submitted calls) := by
  have hrecords := records_after h
  have hall : ((submitted calls).filter fun x => tenantId = none ∨ x.tenantId = tenantId) = submitted calls :=
    List.filter_eq_self.2 fun item hitem => decide_eq_true (.inr (h item hitem))
  rw [processBatch]
  simp only [hrecords.repository, hrecords.lastTenantId hne, FeedbackRepository.stats, hall, List.length_eq_zero_iff, hne,
    ↓reduceIte]
  rfl

/-! ## Both modes -/

/-- Every call of `process_batch` that follows a submission returns, in both
modes, the statistics of the items submitted so far. -/
def Agree (calls : List Call) : Prop :=
  ∀ before, before ++ [.processBatch] <+: calls → submitted before ≠ [] →
    ((plain.after before).processBatch .exact).1 = statistics (submitted before) ∧
      ((overRepository.after before).processBatch .exact).1 = statistics (submitted before)

theorem agree_concat_iff (calls : List Call) (call : Call) :
    Agree (calls ++ [call]) ↔ Agree calls ∧ (call = .processBatch → submitted calls ≠ [] →
      ((plain.after calls).processBatch .exact).1 = statistics (submitted calls) ∧
        ((overRepository.after calls).processBatch .exact).1 = statistics (submitted calls)) := by
  constructor
  · intro h
    refine ⟨fun before hbefore => h before (hbefore.trans (List.prefix_append ..)), ?_⟩
    rintro rfl
    exact h calls List.prefix_rfl
  · rintro ⟨h, hlast⟩ before hbefore
    rcases List.prefix_concat_iff.1 hbefore with heq | hprefix
    · obtain ⟨rfl, hcall⟩ := List.append_inj' heq rfl
      exact hlast (List.cons.inj hcall).1.symm
    · exact h before hprefix

/-- For every tenant and every sequence of calls with its items: all calls of
`process_batch` that follow a submission return the number of the items so far
and the fraction of them that are correct, in both modes, exactly if all batches
have the same fraction of correct items. -/
theorem statistics_iff (tenantId : Option String) (calls : List Call)
    (h : ∀ item ∈ submitted calls, item.tenantId = tenantId) :
    Agree calls ↔ Uniform (·.isCorrect) (batches calls) := by
  induction calls using List.reverseRecOn with
  | nil => exact ⟨fun _ _ hbatch => (by cases hbatch), fun _ before hbefore => (by simp at hbefore)⟩
  | append_singleton calls call ih =>
    rw [agree_concat_iff]
    cases call with
    | submitFeedback item =>
      rw [submitted_concat] at h
      rw [ih fun item' hitem' => h item' (List.mem_append_left _ hitem'), batches, batches, batched_concat]
      exact and_iff_left (fun hcall => by cases hcall)
    | processBatch =>
      rw [submitted_concat_processBatch] at h
      rw [ih h, batches, batches, batched_concat, stepBatched, Batched.uniform_flush_iff]
      refine and_congr_right fun _ => ?_
      have hitems := items_batched calls
      by_cases hne : submitted calls = []
      · have hflush : (batched calls).flush.items = [] := by rw [Batched.items_flush, hitems, hne]
        exact ⟨fun _ => Batched.lastEven_of_items_eq_nil hflush, fun _ _ hsubmitted => absurd hne hsubmitted⟩
      · have hkept := keptStats_eq_iff (s := batched calls) (by rwa [hitems])
        rw [hitems] at hkept
        rw [← hkept, processBatch_plain, batches, batched_concat, stepBatched]
        constructor
        · exact fun hagree => (hagree rfl hne).1
        · exact fun hplain _ _ => ⟨hplain, processBatch_overRepository h hne⟩

/-! ## Two batches -/

def feedback (isCorrect : Bool) : FeedbackRequest where
  tenantId := some "acme"
  traceId := "t1"
  isCorrect := isCorrect
  score := if isCorrect then 1 else 0
  score_nonneg := by cases isCorrect <;> decide
  score_le := by cases isCorrect <;> decide

/-- Half of each batch is correct. -/
def evenCalls : List Call :=
  [.submitFeedback (feedback true), .submitFeedback (feedback false), .processBatch, .submitFeedback (feedback false),
    .submitFeedback (feedback true), .processBatch]

theorem statistics_iff_even : Agree evenCalls :=
  (statistics_iff (some "acme") evenCalls (by decide)).2 (by unfold Uniform; decide +kernel)

/-- The first batch is correct, and the second is not. -/
def unevenCalls : List Call :=
  [.submitFeedback (feedback true), .processBatch, .submitFeedback (feedback false), .processBatch]

/-- The second call returns the ratio 0 without a repository, of two items one of
which is correct. -/
theorem exists_not_agree :
    ¬ ∀ (tenantId : Option String) (calls : List Call),
      (∀ item ∈ submitted calls, item.tenantId = tenantId) → Agree calls := by
  intro h
  have hagree := h (some "acme") unevenCalls (by decide)
  have hplain := (hagree (unevenCalls.take 3) List.prefix_rfl (by decide)).1
  have hratio := congrArg (Dict.get? · "feedback.correct_ratio") hplain
  revert hratio
  decide +kernel

end EnterpriseLearningPipeline

end Ochestrate
