import Ochestrate.Api.RequestContext
import Ochestrate.Framework.Machine
import Ochestrate.Learning.Pipeline

/-!
# Feedback requests

`app/api/v1/feedback.py`: a request submits its item and then asks the shared
pipeline for statistics. The two are separate steps here, so those of other
requests fall in between in any order. `stats_own_iff` says that every request
gets the statistics of its own tenant exactly if the last tenant to submit
before its second step has as many items, and as many correct ones as far as the
repository counts them. `stats_leaked` is an interleaving in which a tenant gets
another one's, and a tenant on its own whose two correct items count as one.
-/

namespace Ochestrate

variable {ν : Type}

/-- `submit_feedback`: the statistics that the response carries. -/
def submitFeedback (F : Floats ν) (request : FeedbackRequest) (auth : AuthContext)
    (pipeline : EnterpriseLearningPipeline ν) : Dict String ν × EnterpriseLearningPipeline ν :=
  (pipeline.submitFeedback (bindFeedbackAuth request auth)).processBatch F

/-- The pipeline, the callers that are between their two steps, and the entries
submitted so far. -/
structure FeedbackState (ν : Type) where
  pipeline : EnterpriseLearningPipeline ν
  pending : Dict Nat AuthContext := .empty
  submitted : List FeedbackEntry

/-- The two steps of a request. -/
inductive FeedbackEvent
  | submit (id : Nat) (request : FeedbackRequest) (auth : AuthContext)
  | process (id : Nat)

/-- The shared pipeline over a repository. -/
def FeedbackState.start (repository : FeedbackRepository) : FeedbackState ν where
  pipeline := { repository := some repository }
  submitted := repository.entries

/-- The steps of all requests on the shared pipeline. -/
def feedbackMachine (F : Floats ν) : Machine (FeedbackState ν) FeedbackEvent where
  step s
    | .submit id request auth =>
      if (s.pending.get? id).isSome then none
      else some {
        pipeline := s.pipeline.submitFeedback (bindFeedbackAuth request auth)
        pending := s.pending.set id auth
        submitted := s.submitted ++ [(some auth.tenantId, request.isCorrect)] }
    | .process id =>
      if (s.pending.get? id).isSome then
        some { s with pipeline := (s.pipeline.processBatch F).2, pending := s.pending.erase id }
      else none

/-- The statistics returned are those of what the caller's tenant has
submitted. -/
def StatsOwn (F : Floats ν) (s : FeedbackState ν) : FeedbackEvent → Prop
  | .submit .. => True
  | .process id =>
    ∀ auth, s.pending.get? id = some auth →
      (s.pipeline.processBatch F).1 = (tenantStats F s.submitted auth.tenantId).toDict F

/-- The last tenant that has submitted has as many items as the caller's, and the
repository counts as many of them as are correct of the caller's: both as the
numbers that `F` makes of them. -/
def LastOwn (F : Floats ν) (s : FeedbackState ν) : FeedbackEvent → Prop
  | .submit .. => True
  | .process id =>
    ∀ auth tenantId repository, s.pending.get? id = some auth → s.pipeline.lastTenantId = some tenantId →
      s.pipeline.repository = some repository →
        F.ofNat (itemsOf s.submitted tenantId) = F.ofNat (itemsOf s.submitted auth.tenantId) ∧
          F.ratio (repository.counted (correctOf s.submitted tenantId)) (itemsOf s.submitted tenantId) =
            F.ratio (correctOf s.submitted auth.tenantId) (itemsOf s.submitted auth.tenantId)

/-- The repository has the entries that were submitted, and a caller that waits
has submitted, after which some tenant is the last. -/
structure Submitted (s : FeedbackState ν) : Prop where
  entries : ∃ repository, s.pipeline.repository = some repository ∧ repository.entries = s.submitted
  own : ∀ id auth, s.pending.get? id = some auth → 0 < itemsOf s.submitted auth.tenantId
  last : ∀ id auth, s.pending.get? id = some auth →
    ∃ tenantId, s.pipeline.lastTenantId = some tenantId ∧ 0 < itemsOf s.submitted tenantId

theorem start_submitted (repository : FeedbackRepository) : Submitted (.start repository : FeedbackState ν) where
  entries := ⟨repository, rfl, rfl⟩
  own _ _ h := nomatch h
  last _ _ h := nomatch h

theorem submitFeedback_repository {pipeline : EnterpriseLearningPipeline ν} {repository : FeedbackRepository}
    (h : pipeline.repository = some repository) (item : FeedbackRequest) :
    (pipeline.submitFeedback item).repository = some (repository.record item) ∧
      (pipeline.submitFeedback item).lastTenantId = item.tenantId := by
  simp only [EnterpriseLearningPipeline.submitFeedback, h, and_self]

theorem processBatch_repository (F : Floats ν) {pipeline : EnterpriseLearningPipeline ν}
    {repository : FeedbackRepository} (h : pipeline.repository = some repository) :
    pipeline.processBatch F = ((repository.stats F pipeline.lastTenantId).toDict F, pipeline) := by
  simp only [EnterpriseLearningPipeline.processBatch, h]

theorem step_submitted (F : Floats ν) : (feedbackMachine F).Keeps (fun _ _ => True) Submitted := by
  intro s e s' _ hstep hs
  obtain ⟨repository, hrepository, hentries⟩ := hs.entries
  cases e with
  | submit id request auth =>
    simp only [feedbackMachine, Option.ite_none_left_eq_some, Option.some.injEq] at hstep
    obtain ⟨-, rfl⟩ := hstep
    obtain ⟨hr, hl⟩ := submitFeedback_repository hrepository (bindFeedbackAuth request auth)
    refine ⟨⟨_, hr, ?_⟩, fun id' auth' hauth => ?_, fun _ _ _ => ⟨auth.tenantId, hl, itemsOf_concat ..⟩⟩
    · have hbound : (bindFeedbackAuth request auth).tenantId = some auth.tenantId := rfl
      rw [FeedbackRepository.entries_record repository hbound, hentries]
      rfl
    · rw [Dict.get?_set] at hauth
      split at hauth
      · obtain rfl := Option.some.inj hauth
        exact itemsOf_concat ..
      · exact (hs.own id' auth' hauth).trans_le (itemsOf_le_append ..)
  | process id =>
    simp only [feedbackMachine, Option.ite_none_right_eq_some, Option.some.injEq] at hstep
    obtain ⟨-, rfl⟩ := hstep
    rw [processBatch_repository F hrepository]
    have hpending : ∀ id' auth, (s.pending.erase id).get? id' = some auth → s.pending.get? id' = some auth := by
      intro id' auth hauth
      rw [Dict.get?_erase] at hauth
      split at hauth
      · cases hauth
      · exact hauth
    exact ⟨⟨repository, hrepository, hentries⟩, fun id' auth hauth => hs.own id' auth (hpending id' auth hauth),
      fun id' auth hauth => hs.last id' auth (hpending id' auth hauth)⟩

theorem FeedbackStats.toDict_inj (F : Floats ν) {stats stats' : FeedbackStats ν} :
    stats.toDict F = stats'.toDict F ↔
      F.ofNat stats.total = F.ofNat stats'.total ∧ stats.correctRatio = stats'.correctRatio := by
  constructor
  · intro h
    have htotal := congrArg (·.get? "feedback.total") h
    have hratio := congrArg (·.get? "feedback.correct_ratio") h
    simp only [FeedbackStats.toDict, Dict.get?_set, String.reduceEq, ↓reduceIte, Option.some.injEq]
      at htotal hratio
    exact ⟨htotal, hratio⟩
  · rintro ⟨htotal, hratio⟩
    rw [FeedbackStats.toDict, htotal, hratio, FeedbackStats.toDict]

/-- The second step returns what the repository counts for the last tenant that has
submitted. -/
theorem statsOwn_iff (F : Floats ν) {s : FeedbackState ν} (hs : Submitted s) (e : FeedbackEvent) :
    StatsOwn F s e ↔ LastOwn F s e := by
  cases e with
  | submit => exact Iff.rfl
  | process id =>
    obtain ⟨repository, hrepository, hentries⟩ := hs.entries
    have hbatch : ∀ auth tenantId, s.pending.get? id = some auth → s.pipeline.lastTenantId = some tenantId →
        0 < itemsOf s.submitted tenantId →
          ((s.pipeline.processBatch F).1 = (tenantStats F s.submitted auth.tenantId).toDict F ↔
            F.ofNat (itemsOf s.submitted tenantId) = F.ofNat (itemsOf s.submitted auth.tenantId) ∧
              F.ratio (repository.counted (correctOf s.submitted tenantId)) (itemsOf s.submitted tenantId) =
                F.ratio (correctOf s.submitted auth.tenantId) (itemsOf s.submitted auth.tenantId)) := by
      intro auth tenantId hauth hlast hitems
      rw [processBatch_repository F hrepository, hlast, FeedbackRepository.stats_some F repository (hentries ▸ hitems),
        hentries, tenantStats_of_pos F (hs.own id auth hauth), FeedbackStats.toDict_inj]
    constructor
    · intro hown auth tenantId repository' hauth hlast hrepository'
      obtain rfl := Option.some.inj (hrepository.symm.trans hrepository')
      obtain ⟨tenantId', hlast', hitems⟩ := hs.last id auth hauth
      obtain rfl := Option.some.inj (hlast.symm.trans hlast')
      exact (hbatch auth tenantId hauth hlast hitems).1 (hown auth hauth)
    · intro hlastOwn auth hauth
      obtain ⟨tenantId, hlast, hitems⟩ := hs.last id auth hauth
      exact (hbatch auth tenantId hauth hlast hitems).2 (hlastOwn auth tenantId repository hauth hlast hrepository)

/-- In every interleaving of the requests, each gets its own tenant's statistics
exactly if none is overtaken by a tenant whose numbers differ and the repository
counts the correct items. -/
theorem stats_own_iff (F : Floats ν) (repository : FeedbackRepository) (events : List FeedbackEvent) :
    (feedbackMachine F).Meets (StatsOwn F) (.start repository) events ↔
      (feedbackMachine F).Meets (LastOwn F) (.start repository) events := by
  have hkeeps : (feedbackMachine F).Keeps (LastOwn F) Submitted :=
    Machine.Keeps.mono (step_submitted F) fun _ _ _ => trivial
  exact (feedbackMachine F).meets_congr hkeeps (fun hs => statsOwn_iff F hs _) (start_submitted repository)

/-- In memory a request that no other one falls into gets its own tenant's
statistics. -/
theorem submitFeedback_own (F : Floats ν) {pipeline : EnterpriseLearningPipeline ν} {mem : List FeedbackRequest}
    (h : pipeline.repository = some (.memory mem)) (request : FeedbackRequest) (auth : AuthContext) :
    (submitFeedback F request auth pipeline).1 =
      (tenantStats F ((FeedbackRepository.memory mem).entries ++ [(some auth.tenantId, request.isCorrect)])
        auth.tenantId).toDict F := by
  obtain ⟨hr, hl⟩ := submitFeedback_repository h (bindFeedbackAuth request auth)
  have hbound : (bindFeedbackAuth request auth).tenantId = some auth.tenantId := rfl
  have hentries := FeedbackRepository.entries_record (.memory mem) hbound
  have hitems : 0 < itemsOf ((FeedbackRepository.memory mem).record (bindFeedbackAuth request auth)).entries auth.tenantId :=
    hentries ▸ itemsOf_concat ..
  rw [submitFeedback, processBatch_repository F hr, hl, hbound, FeedbackRepository.stats_some F _ hitems, hentries,
    tenantStats_of_pos F (itemsOf_concat ..)]
  rfl

/-! ## Two tenants at once -/

/-- Exact arithmetic. -/
def exactFloats : Floats Rat where
  ofNat n := n
  ratio m n := mkRat m n
  addNat x n := x + n

/-- A caller of a tenant. -/
def feedbackCaller (tenantId userId : String) : AuthContext where
  tenantId := tenantId
  userId := userId
  role := "employee"
  sessionId := "s1"
  tokenExp := 3600

def feedbackItem (isCorrect : Bool) : FeedbackRequest where
  traceId := "trace-1"
  isCorrect := isCorrect
  score := 1
  score_nonneg := by decide
  score_le := by decide

/-- `acme` submits a correct item, `globex` an incorrect one, and then `acme`
asks for the statistics. -/
def overtaken : List FeedbackEvent := [
  .submit 1 (feedbackItem true) (feedbackCaller "acme" "u1"),
  .submit 2 (feedbackItem false) (feedbackCaller "globex" "u2"), .process 1]

/-- `acme` submits two correct items, one request after the other. -/
def aloneTwice : List FeedbackEvent := [
  .submit 1 (feedbackItem true) (feedbackCaller "acme" "u1"), .process 1,
  .submit 2 (feedbackItem true) (feedbackCaller "acme" "u1"), .process 2]

/-- The caller of `acme` is told that none of its one item is correct, and with a
database that half of its two are. -/
theorem stats_leaked :
    ((∃ s, (feedbackMachine exactFloats).run (.start (.memory [])) (overtaken.take 2) = some s ∧
      (s.pipeline.processBatch exactFloats).1.get? "feedback.correct_ratio" = some 0 ∧
      (tenantStats exactFloats s.submitted "acme").correctRatio = 1) ∧
      ¬ (feedbackMachine exactFloats).Meets (StatsOwn exactFloats) (.start (.memory [])) overtaken) ∧
    (∃ s, (feedbackMachine exactFloats).run (.start (.database [])) (aloneTwice.take 3) = some s ∧
      (s.pipeline.processBatch exactFloats).1.get? "feedback.correct_ratio" = some (1 / 2) ∧
      (tenantStats exactFloats s.submitted "acme").correctRatio = 1) ∧
      ¬ (feedbackMachine exactFloats).Meets (StatsOwn exactFloats) (.start (.database [])) aloneTwice := by
  have hrun : ∃ s, (feedbackMachine exactFloats).run (.start (.memory [])) (overtaken.take 2) = some s ∧
      (s.pipeline.processBatch exactFloats).1.get? "feedback.correct_ratio" = some 0 ∧
      (tenantStats exactFloats s.submitted "acme").correctRatio = 1 :=
    ⟨_, rfl, by decide, by decide⟩
  have hrun' : ∃ s, (feedbackMachine exactFloats).run (.start (.database [])) (aloneTwice.take 3) = some s ∧
      (s.pipeline.processBatch exactFloats).1.get? "feedback.correct_ratio" = some (1 / 2) ∧
      (tenantStats exactFloats s.submitted "acme").correctRatio = 1 :=
    ⟨_, rfl, by decide +kernel, by decide +kernel⟩
  refine ⟨⟨hrun, fun hm => ?_⟩, hrun', fun hm => ?_⟩
  · have hown := ((hm.2 _ rfl).2 _ rfl).1 _ rfl
    exact absurd (congrArg (·.get? "feedback.correct_ratio") hown) (by decide)
  · have hown := (((hm.2 _ rfl).2 _ rfl).2 _ rfl).1 _ rfl
    exact absurd (congrArg (·.get? "feedback.correct_ratio") hown) (by decide +kernel)

end Ochestrate
