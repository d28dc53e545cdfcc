import Ochestrate.Framework.Words
import Ochestrate.Storage.KnowledgeModes

/-!
# The knowledge store

`app/rag/store.py`: chunks are kept by a repository in memory, or by the store
itself, and the two search for them in code of their own. `search_eq` says that
they return the same, `search_top` that these are the best chunks of the tenant:
those with the most tokens of the query, in the order in which they were added.
-/

namespace Ochestrate

structure KnowledgeStore where
  repository : Option KnowledgeMemory
  chunks : List KnowledgeChunk := []

namespace KnowledgeStore

variable (lower : String → String)

/-- A store on its own. -/
def plain : KnowledgeStore := { repository := none }

/-- A store over an empty repository in memory. -/
def overRepository : KnowledgeStore := { repository := some [] }

def addChunks (store : KnowledgeStore) (chunks : List KnowledgeChunk) : KnowledgeStore :=
  match store.repository with
  | some repository => { store with repository := some (repository.addChunks chunks) }
  | none => { store with chunks := store.chunks ++ chunks }

/-- How many tokens of the text the content has. -/
def tokenScore (text : String) (chunk : KnowledgeChunk) : Nat :=
  (split text).countP fun token => containsText token (lower chunk.content)

def search (store : KnowledgeStore) (tenantId query : String) (limit : Int := 5) : List KnowledgeChunk :=
  match store.repository with
  | some repository => repository.search lower tenantId query limit
  | none =>
    let normalizedQuery := normalized lower query
    let candidates := store.chunks.filter fun chunk => chunk.tenantId = tenantId
    if normalizedQuery = "" then sliceTo limit candidates
    else
      let scored := candidates.filterMap fun chunk =>
        let score := tokenScore lower normalizedQuery chunk
        if 0 < score then some (score, chunk) else none
      (sliceTo limit (scored.mergeSort fun item item' => item'.1 ≤ item.1)).map (·.2)

/-- The store after calls of `add_chunks` in turn. -/
def after (store : KnowledgeStore) (calls : List (List KnowledgeChunk)) : KnowledgeStore := calls.foldl addChunks store

/-! ## Scores -/

variable {lower}

/-- The repository leaves out empty tokens, and there are none. -/
theorem score_eq_tokenScore (text : String) (chunk : KnowledgeChunk) :
    score lower text chunk = tokenScore lower text chunk := by
  have htokens : (split text).filter (· ≠ "") = split text :=
    List.filter_eq_self.2 fun token htoken => by simpa using ne_empty_of_mem_split htoken
  rw [score, htokens]
  rfl

/-- White space at the ends of the query has no token. -/
theorem tokenScore_normalized (query : String) (chunk : KnowledgeChunk) :
    tokenScore lower (normalized lower query) chunk = tokenScore lower (lower query) chunk := by
  rw [tokenScore, normalized, split_strip]
  rfl

/-! ## Both modes -/

theorem after_plain (calls : List (List KnowledgeChunk)) :
    plain.after calls = { plain with chunks := calls.flatten } := by
  induction calls using List.reverseRecOn with
  | nil => rfl
  | append_singleton calls chunks ih =>
    rw [after, List.foldl_concat, ← after, ih, List.flatten_concat]
    rfl

theorem after_overRepository (calls : List (List KnowledgeChunk)) :
    overRepository.after calls = { overRepository with repository := some calls.flatten } := by
  induction calls using List.reverseRecOn with
  | nil => rfl
  | append_singleton calls chunks ih =>
    rw [after, List.foldl_concat, ← after, ih, List.flatten_concat]
    rfl

/-- The store's own search ranks as the repository does. -/
theorem search_plain (calls : List (List KnowledgeChunk)) (tenantId query : String) (limit : Int) :
    (plain.after calls).search lower tenantId query limit =
      rank lower (calls.flatten.filter fun chunk => chunk.tenantId = tenantId) (normalized lower query) limit := by
  have hscore : score lower (normalized lower query) = tokenScore lower (normalized lower query) :=
    funext (score_eq_tokenScore _)
  rw [after_plain, rank, hscore]
  rfl

variable (lower)

/-- After the same calls both modes return the same list. For a query that is not
blank it has the best chunks of the tenant, and those that it leaves out have no
more tokens of the query. -/
theorem search_top (calls : List (List KnowledgeChunk)) (tenantId query : String) (limit : Nat) :
    (overRepository.after calls).search lower tenantId query limit =
        (plain.after calls).search lower tenantId query limit ∧
      (isBlank (lower query) = false →
        ∃ places, Top (tokenScore lower (lower query))
            (fun chunk => chunk.tenantId = tenantId ∧ 0 < tokenScore lower (lower query) chunk) limit calls.flatten places ∧
          (plain.after calls).search lower tenantId query limit = places.map Prod.fst ∧
          ∀ chunk ∈ calls.flatten, chunk.tenantId = tenantId → chunk ∉ places.map Prod.fst →
            ∀ result ∈ places.map Prod.fst,
              tokenScore lower (lower query) chunk ≤ tokenScore lower (lower query) result) := by
  constructor
  · rw [search_plain, after_overRepository]
    rfl
  · intro hquery
    have hnormalized : normalized lower query ≠ "" := by
      rw [normalized, Ne, strip_eq_empty_iff, hquery]
      simp
    have hscore : score lower (normalized lower query) = tokenScore lower (lower query) :=
      funext fun chunk => (score_eq_tokenScore _ chunk).trans (tokenScore_normalized query chunk)
    obtain ⟨places, htop, hplaces⟩ := exists_top (tokenScore lower (lower query))
      (fun chunk => chunk.tenantId = tenantId ∧ 0 < tokenScore lower (lower query) chunk) limit calls.flatten
    refine ⟨places, htop, ?_, fun chunk hchunk htenant hout result hresult => ?_⟩
    · rw [search_plain, rank_eq hnormalized, hscore, hplaces, sliceTo_of_nonneg (by omega), Int.toNat_natCast,
        List.filter_filter]
      refine congrArg (fun chunks => List.take limit (List.mergeSort chunks _)) (List.filter_congr fun chunk _ => ?_)
      rw [Bool.decide_and, Bool.and_comm]
    · by_cases hpositive : 0 < tokenScore lower (lower query) chunk
      · exact htop.score_le _ hchunk (decide_eq_true ⟨htenant, hpositive⟩) hout hresult
      · omega

/-- Of two handbooks, one of another tenant, the store finds the one. -/
theorem search_top_handbook :
    isBlank "policy" = false ∧
      ∃ places, Top (tokenScore id "policy") (fun chunk => chunk.tenantId = "acme" ∧ 0 < tokenScore id "policy" chunk) 5
          [handbook "travel policy", { handbook "policy" with tenantId := "other" }] places ∧
        (plain.after [[handbook "travel policy"], [{ handbook "policy" with tenantId := "other" }]]).search id "acme"
          "policy" 5 = places.map Prod.fst := by
  obtain ⟨places, htop, hresults, -⟩ := (search_top id
    [[handbook "travel policy"], [{ handbook "policy" with tenantId := "other" }]] "acme" "policy" 5).2 (by decide)
  exact ⟨by decide, places, htop, hresults⟩

end KnowledgeStore

end Ochestrate
