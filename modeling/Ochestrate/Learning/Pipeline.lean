import Ochestrate.Framework.Dict
import Ochestrate.Storage.FeedbackRepo

/-!
# The learning pipeline

`app/learning/pipeline.py`. Between the submission of an item and the statistics
the pipeline remembers one tenant for all of its callers.
-/

namespace Ochestrate

/-- `EnterpriseLearningPipeline`; `stats` is a `defaultdict(float)`. -/
structure EnterpriseLearningPipeline (ν : Type) where
  repository : Option FeedbackRepository := none
  feedbackBuffer : List FeedbackRequest := []
  stats : Dict String ν := .empty
  lastTenantId : Option String := none

/-- The dictionary of a repository's statistics. -/
def FeedbackStats.toDict {ν : Type} (F : Floats ν) (stats : FeedbackStats ν) : Dict String ν :=
  (Dict.empty.set "feedback.total" (F.ofNat stats.total)).set "feedback.correct_ratio" stats.correctRatio

namespace EnterpriseLearningPipeline

variable {ν : Type}

def submitFeedback (pipeline : EnterpriseLearningPipeline ν) (item : FeedbackRequest) :
    EnterpriseLearningPipeline ν :=
  let pipeline := { pipeline with lastTenantId := item.tenantId }
  match pipeline.repository with
  | some repository => { pipeline with repository := some (repository.record item) }
  | none => { pipeline with feedbackBuffer := pipeline.feedbackBuffer ++ [item] }

def processBatch (F : Floats ν) (pipeline : EnterpriseLearningPipeline ν) :
    Dict String ν × EnterpriseLearningPipeline ν :=
  match pipeline.repository with
  | some repository => ((repository.stats F pipeline.lastTenantId).toDict F, pipeline)
  | none =>
    if pipeline.feedbackBuffer = [] then (pipeline.stats, pipeline)
    else
      let total := pipeline.feedbackBuffer.length
      let correct := pipeline.feedbackBuffer.countP (·.isCorrect)
      let stats := (pipeline.stats.set "feedback.total"
          (F.addNat ((pipeline.stats.get? "feedback.total").getD (F.ofNat 0)) total)).set
        "feedback.correct_ratio" (F.ratio correct total)
      (stats, { pipeline with stats, feedbackBuffer := [] })

end EnterpriseLearningPipeline

end Ochestrate
