import Ochestrate.Framework.Rounding
import Ochestrate.Orchestration.Service
import Ochestrate.Rag.Store

/-!
# Citations

`app/rag/retriever.py` and `app/agents/retriever.py`: the chunks that a search
finds become citations with the first 200 characters of the content and a score
that is counted down in floats. The scores do not increase along the list and
stay between `0.1` and `1.0` (`score_antitone`, `score_mem`). What is found has a
token of the query, unless the query is blank, and if it is less than the limit it is
all that there is to find (`of_mem_rank`, `mem_rank_of_length_lt`).
-/

namespace Ochestrate

namespace HybridRetriever

/-- The float `0.1`. -/
def tenth : Rat := binary64.round (1 / 10)

/-- `max(0.1, 1.0 - idx * 0.1)` -/
def score (idx : Nat) : Rat := max tenth (binary64.sub 1 (binary64.mul (binary64.round idx) tenth))

def citation (idx : Nat) (chunk : KnowledgeChunk) : Citation where
  sourceId := chunk.sourceId
  chunkId := chunk.chunkId
  snippet := firstChars chunk.content 200
  score := score idx

variable (lower : String → String)

def retrieve (store : KnowledgeStore) (tenantId query : String) (limit : Int := 5) : List Citation :=
  (store.search lower tenantId query limit).mapIdx citation

/-! ## Scores -/

theorem tenth_nonneg : 0 ≤ tenth := binary64.round_nonneg (by norm_num)

theorem score_antitone {i j : Nat} (h : i ≤ j) : score j ≤ score i := by
  have hidx : binary64.round i ≤ binary64.round j := binary64.round_mono (Nat.cast_le.2 h)
  have hmul : binary64.mul (binary64.round i) tenth ≤ binary64.mul (binary64.round j) tenth :=
    binary64.round_mono (mul_le_mul_of_nonneg_right hidx tenth_nonneg)
  exact max_le_max le_rfl (binary64.round_mono (by linarith))

theorem score_mem (idx : Nat) : tenth ≤ score idx ∧ score idx ≤ 1 := by
  have hidx : 0 ≤ binary64.mul (binary64.round idx) tenth :=
    binary64.round_nonneg (mul_nonneg (binary64.round_nonneg (Nat.cast_nonneg idx)) tenth_nonneg)
  have hone : binary64.round 1 = 1 := by decide +kernel
  have htenth : tenth ≤ 1 := BinaryFormat.round_le hone (by norm_num)
  exact ⟨le_max_left .., max_le htenth (BinaryFormat.round_le hone (by linarith))⟩

end HybridRetriever

/-! ## What is found -/

/-- A store before the first chunk, on its own or over an in-memory repository. -/
def KnowledgeStore.IsEmpty (store : KnowledgeStore) : Prop := store = .plain ∨ store = .overRepository

/-- A chunk that has a token of the query. -/
def IsRelevant (lower : String → String) (query content : String) : Prop :=
  ∃ token ∈ split (lower query), containsText token (lower content) = true

/-- What a search looks for: anything if the query is blank. -/
def IsSought (lower : String → String) (query content : String) : Prop :=
  isBlank (lower query) = true ∨ IsRelevant lower query content

theorem isRelevant_iff {lower : String → String} {query : String} {chunk : KnowledgeChunk} :
    IsRelevant lower query chunk.content ↔ 0 < score lower (normalized lower query) chunk := by
  rw [KnowledgeStore.score_eq_tokenScore, KnowledgeStore.tokenScore_normalized, KnowledgeStore.tokenScore,
    List.countP_pos_iff]
  rfl

theorem normalized_eq_empty_iff {lower : String → String} {query : String} :
    normalized lower query = "" ↔ isBlank (lower query) = true := by
  rw [normalized, strip_eq_empty_iff]

/-- Both modes rank the chunks of the tenant. -/
theorem KnowledgeStore.search_eq_rank {store : KnowledgeStore} (h : store.IsEmpty) (lower : String → String)
    (calls : List (List KnowledgeChunk)) (tenantId query : String) (limit : Int) :
    (store.after calls).search lower tenantId query limit =
      rank lower (calls.flatten.filter fun chunk => chunk.tenantId = tenantId) (normalized lower query) limit := by
  obtain rfl | rfl := h
  · exact search_plain calls tenantId query limit
  · rw [after_overRepository]
    rfl

/-- What is ranked is there, and is what the search looks for. -/
theorem of_mem_rank {lower : String → String} {chunks : List KnowledgeChunk} {query : String} {limit : Nat}
    {chunk : KnowledgeChunk} (h : chunk ∈ rank lower chunks (normalized lower query) limit) :
    chunk ∈ chunks ∧ IsSought lower query chunk.content := by
  by_cases hquery : normalized lower query = ""
  · rw [rank, if_pos hquery, sliceTo_of_nonneg (by omega)] at h
    exact ⟨List.mem_of_mem_take h, .inl (normalized_eq_empty_iff.1 hquery)⟩
  · rw [rank_eq hquery, sliceTo_of_nonneg (by omega)] at h
    obtain ⟨hchunk, hscore⟩ := List.mem_filter.1 ((List.mergeSort_perm _ _).mem_iff.1 (List.mem_of_mem_take h))
    exact ⟨hchunk, .inr (isRelevant_iff.2 (of_decide_eq_true hscore))⟩

theorem length_rank_le (lower : String → String) (chunks : List KnowledgeChunk) (query : String) (limit : Nat) :
    (rank lower chunks query limit).length ≤ limit := by
  unfold rank
  split
  · rw [sliceTo_of_nonneg (by omega)]
    exact List.length_take_le ..
  · rw [List.length_map, sliceTo_of_nonneg (by omega)]
    exact List.length_take_le ..

/-- A ranking that is not full leaves out nothing that the search looks for. -/
theorem mem_rank_of_length_lt {lower : String → String} {chunks : List KnowledgeChunk} {query : String} {limit : Nat}
    (hlength : (rank lower chunks (normalized lower query) limit).length < limit) {chunk : KnowledgeChunk}
    (hchunk : chunk ∈ chunks) (hsought : IsSought lower query chunk.content) :
    chunk ∈ rank lower chunks (normalized lower query) limit := by
  by_cases hquery : normalized lower query = ""
  · rw [rank, if_pos hquery, sliceTo_of_nonneg (by omega)] at hlength ⊢
    rw [List.length_take] at hlength
    rw [List.take_of_length_le (by omega)]
    exact hchunk
  · have hrelevant : IsRelevant lower query chunk.content :=
      hsought.resolve_left fun hblank => hquery (normalized_eq_empty_iff.2 hblank)
    rw [rank_eq hquery, sliceTo_of_nonneg (by omega)] at hlength ⊢
    rw [List.length_take] at hlength
    rw [List.take_of_length_le (by omega)]
    exact (List.mergeSort_perm _ _).mem_iff.2 (List.mem_filter.2 ⟨hchunk, decide_eq_true (isRelevant_iff.1 hrelevant)⟩)

/-- `retrieve`. No chunk belongs to the tenant `None`. -/
def RetrieverAgent.retrieve (lower : String → String) (store : KnowledgeStore) (request : UnifiedRequest) :
    List Citation :=
  match request.tenantId with
  | none => []
  | some tenantId => HybridRetriever.retrieve lower store tenantId request.input 5

end Ochestrate
