import Mathlib.Data.List.Perm.Basic
import Ochestrate.Framework.Ranking
import Ochestrate.Storage.KnowledgeRepo

/-!
# The two modes of the knowledge repository

The list holds every chunk that was ever added, the table the last one under
each key, without its embedding (`chunks_after_perm`), and a search reads the
300 newest rows of the tenant. `modes_same_results_iff` says for which searches
both return the same chunks.
-/

namespace Ochestrate

/-- One call of `add_chunks` without a key that comes twice, and the server's
`current_timestamp` when a row is inserted. -/
structure ChunkBatch where
  chunks : List KnowledgeChunk
  distinct : (chunks.map (·.key)).Nodup
  serverNow : ChunkKey → Time

/-- All chunks of the calls in turn. -/
def added (calls : List ChunkBatch) : List KnowledgeChunk := calls.flatMap (·.chunks)

/-- The list after the calls. -/
def KnowledgeMemory.after (calls : List ChunkBatch) : KnowledgeMemory :=
  calls.foldl (fun mem call => mem.addChunks call.chunks) []

/-- The table after a call; if the commit raises, it is as before. -/
def KnowledgeTable.step (table : KnowledgeTable) (call : ChunkBatch) : KnowledgeTable :=
  match table.addChunks call.serverNow call.chunks with
  | .ok table' => table'
  | .error _ => table

/-- The table after the calls. -/
def KnowledgeTable.after (calls : List ChunkBatch) : KnowledgeTable := calls.foldl step empty

section Search

variable (lower : String → String)

/-- The chunk is a result of the query: with a blank query, every chunk is. -/
def isMatch (normalizedQuery : String) (chunk : KnowledgeChunk) : Bool :=
  normalizedQuery = "" || 0 < score lower normalizedQuery chunk

/-- The same chunks, each as often, with the scores in the same order. -/
def SameUpToTies (normalizedQuery : String) (results results' : List KnowledgeChunk) : Prop :=
  results.Perm results' ∧ results.map (score lower normalizedQuery) = results'.map (score lower normalizedQuery)

variable {lower}

@[simp] theorem score_blank (chunk : KnowledgeChunk) : score lower "" chunk = 0 := by
  simp [score, split]

theorem sliceTo_eq_self {α : Type} {limit : Int} {xs : List α} (h : (xs.length : Int) ≤ limit) : sliceTo limit xs = xs := by
  rw [sliceTo_of_nonneg (by omega), List.take_of_length_le (by omega)]

/-- Elements that are kept together with a value. -/
theorem map_snd_filterMap {α β : Type} (p : α → Prop) [DecidablePred p] (f : α → β) (as : List α) :
    (as.filterMap fun a => if p a then some (f a, a) else none).map (·.2) = as.filter fun a => p a := by
  rw [List.map_filterMap, ← List.filterMap_eq_filter]
  refine congrArg (as.filterMap ·) (funext fun a => ?_)
  rw [apply_ite (Option.map _), Option.guard_def]
  simp

/-- Ranking is a stable sort of the chunks that have a score, cut at the limit. -/
theorem rank_eq {normalizedQuery : String} (h : normalizedQuery ≠ "") (chunks : List KnowledgeChunk) (limit : Int) :
    rank lower chunks normalizedQuery limit =
      sliceTo limit ((chunks.filter fun chunk => 0 < score lower normalizedQuery chunk).mergeSort
        (scoreLE (score lower normalizedQuery))) := by
  let scored := chunks.filterMap fun chunk =>
    if 0 < score lower normalizedQuery chunk then some (score lower normalizedQuery chunk, chunk) else none
  have hscores : ∀ item ∈ scored, item.1 = score lower normalizedQuery item.2 := by
    intro item hmem
    obtain ⟨chunk, -, hitem⟩ := List.mem_filterMap.1 hmem
    rw [Option.ite_none_right_eq_some] at hitem
    rw [← Option.some.inj hitem.2]
  rw [rank, if_neg h]
  show (sliceTo limit (scored.mergeSort fun item item' => item'.1 ≤ item.1)).map Prod.snd = _
  rw [map_sliceTo, ← map_snd_filterMap]
  refine congrArg (sliceTo limit) (List.map_mergeSort fun item hmem item' hmem' => ?_)
  rw [hscores item hmem, hscores item' hmem']
  rfl

/-- Without a limit in effect, ranking keeps what matches, the best first. -/
theorem rank_spec (lower : String → String) (normalizedQuery : String) {chunks : List KnowledgeChunk} {limit : Int}
    (h : (chunks.length : Int) ≤ limit) :
    (rank lower chunks normalizedQuery limit).Perm (chunks.filter (isMatch lower normalizedQuery)) ∧
      (rank lower chunks normalizedQuery limit).Pairwise fun chunk chunk' =>
        score lower normalizedQuery chunk' ≤ score lower normalizedQuery chunk := by
  by_cases hquery : normalizedQuery = ""
  · subst hquery
    have hall : chunks.filter (isMatch lower "") = chunks := List.filter_eq_self.2 fun _ _ => rfl
    rw [rank, if_pos rfl, sliceTo_eq_self h, hall]
    exact ⟨.refl _, List.pairwise_of_forall fun chunk chunk' => by simp⟩
  · have hmatch : isMatch lower normalizedQuery = fun chunk => decide (0 < score lower normalizedQuery chunk) := by
      funext chunk
      rw [isMatch, decide_eq_false hquery, Bool.false_or]
    let sorted := (chunks.filter fun chunk => 0 < score lower normalizedQuery chunk).mergeSort
      (scoreLE (score lower normalizedQuery))
    have hlength : (sorted.length : Int) ≤ limit := by
      have hle : sorted.length ≤ chunks.length := by
        rw [List.length_mergeSort]
        exact List.length_filter_le ..
      omega
    have hsorted : sorted.Pairwise fun chunk chunk' => scoreLE (score lower normalizedQuery) chunk chunk' = true :=
      List.pairwise_mergeSort (scoreLE_trans _) (scoreLE_total _) _
    rw [rank_eq hquery, sliceTo_eq_self hlength, hmatch]
    exact ⟨List.mergeSort_perm .., hsorted.imp of_decide_eq_true⟩

/-- Ranked lists of the same chunks have the same scores. -/
theorem sameUpToTies_iff {normalizedQuery : String} {results results' : List KnowledgeChunk}
    (h : results.Pairwise fun chunk chunk' => score lower normalizedQuery chunk' ≤ score lower normalizedQuery chunk)
    (h' : results'.Pairwise fun chunk chunk' => score lower normalizedQuery chunk' ≤ score lower normalizedQuery chunk) :
    SameUpToTies lower normalizedQuery results results' ↔ results.Perm results' := by
  refine ⟨fun hsame => hsame.1, fun hperm => ⟨hperm, ?_⟩⟩
  have hscores : (results.map (score lower normalizedQuery)).Pairwise fun n m => m ≤ n := List.pairwise_map.2 h
  have hscores' : (results'.map (score lower normalizedQuery)).Pairwise fun n m => m ≤ n := List.pairwise_map.2 h'
  refine (hperm.map (score lower normalizedQuery)).eq_of_pairwise (fun n m _ _ hle hge => ?_) hscores hscores'
  omega

end Search

/-! ## What the calls leave -/

theorem after_memory (calls : List ChunkBatch) : KnowledgeMemory.after calls = added calls := by
  induction calls using List.reverseRecOn with
  | nil => rfl
  | append_singleton calls call ih =>
    rw [KnowledgeMemory.after] at ih ⊢
    rw [List.foldl_append, ih, added, added, List.flatMap_append, List.flatMap_singleton]
    rfl

namespace KnowledgeTable

/-- The chunk under a key after one more call. -/
theorem chunkUnder_step (table : KnowledgeTable) (call : ChunkBatch) (key : ChunkKey) :
    (table.step call).chunkUnder key =
      ((lastUnder call.chunks key).map (·.withoutEmbedding)).or (table.chunkUnder key) := by
  have hspec := table.addChunks_spec call.serverNow call.chunks
  rw [if_pos (call.distinct.sublist (List.filter_sublist.map _))] at hspec
  obtain ⟨table', hok, -⟩ := hspec
  unfold step
  rw [hok]
  exact chunkUnder_addChunks hok key

/-- The table has the last chunk under each key. -/
theorem chunkUnder_after (calls : List ChunkBatch) (key : ChunkKey) :
    (after calls).chunkUnder key = (lastUnder (added calls) key).map (·.withoutEmbedding) := by
  induction calls using List.reverseRecOn with
  | nil => rfl
  | append_singleton calls call ih =>
    have happend : lastUnder (added (calls ++ [call])) key =
        (lastUnder call.chunks key).or (lastUnder (added calls) key) := by
      rw [added, List.flatMap_append, List.flatMap_singleton]
      exact lastWhere_append ..
    have hafter : after (calls ++ [call]) = (after calls).step call := by
      rw [after, List.foldl_append]
      rfl
    rw [hafter, chunkUnder_step, ih, happend]
    cases lastUnder call.chunks key <;> rfl

/-- The rows are the chunks that no later one replaced. -/
theorem chunks_after_perm (calls : List ChunkBatch) :
    (after calls).chunks.Perm ((lastOfEach (·.key) (added calls)).map (·.withoutEmbedding)) := by
  have hchunks : (((lastOfEach (·.key) (added calls)).map (·.withoutEmbedding)).map (·.key)).Nodup := by
    rw [List.map_map]
    exact nodup_lastOfEach (·.key) (added calls)
  rw [List.perm_ext_iff_of_nodup (.of_map _ (after calls).nodup_chunks) (.of_map _ hchunks)]
  intro chunk
  simp only [mem_chunks, chunkUnder_after, List.mem_map, mem_lastOfEach, Option.map_eq_some_iff]
  constructor <;>
  · rintro ⟨last, hlast, rfl⟩
    exact ⟨last, hlast, rfl⟩

end KnowledgeTable

/-! ## Both modes -/

/-- A part of some images against all originals. -/
theorem perm_iff_of_sublist {α : Type} {f : α → α} (hf : ∀ a, f (f a) = f a) {all last found stored : List α}
    (hlast : last.Sublist all) (hfound : found.Sublist stored) (hstored : stored.Perm (last.map f)) :
    all.Perm found ↔ last = all ∧ found = stored ∧ ∀ a ∈ all, f a = a := by
  constructor
  · intro hperm
    have hlength := hperm.length_eq
    have hle := hfound.length_le
    have hle' := hlast.length_le
    have hmap := hstored.length_eq
    rw [List.length_map] at hmap
    have hlastEq : last = all := hlast.eq_of_length (by omega)
    have hfoundEq : found = stored := hfound.eq_of_length (by omega)
    refine ⟨hlastEq, hfoundEq, fun a hmem => ?_⟩
    rw [hfoundEq] at hperm
    rw [hlastEq] at hstored
    obtain ⟨a', -, rfl⟩ := List.mem_map.1 ((hperm.trans hstored).subset hmem)
    exact hf a'
  · rintro ⟨rfl, rfl, hfix⟩
    rw [List.map_congr_left hfix, List.map_id'] at hstored
    exact hstored.symm

/-- The chunk is a result for the tenant. -/
def isResult (lower : String → String) (tenantId query : String) (chunk : KnowledgeChunk) : Bool :=
  chunk.tenantId = tenantId && isMatch lower (normalized lower query) chunk

section Modes

variable {lower : String → String} {calls : List ChunkBatch} {tenantId : String} {rows : List ChunkRow}

/-- What the table's rows of the tenant are, as chunks that match. -/
theorem stored_perm (hrows : (KnowledgeTable.after calls).Ordered tenantId rows) (query : String) :
    ((rows.map (·.toChunk)).filter (isMatch lower (normalized lower query))).Perm
      (((lastOfEach (·.key) (added calls)).filter (isResult lower tenantId query)).map (·.withoutEmbedding)) := by
  have htenant : ((KnowledgeTable.after calls).rows.values.filter fun row => row.tenantId = tenantId).map (·.toChunk) =
      ((KnowledgeTable.after calls).rows.values.map (·.toChunk)).filter fun chunk => chunk.tenantId = tenantId := by
    rw [List.filter_map]
    rfl
  have hrest : (((lastOfEach (·.key) (added calls)).map (·.withoutEmbedding)).filter
        fun chunk => chunk.tenantId = tenantId).filter (isMatch lower (normalized lower query)) =
      ((lastOfEach (·.key) (added calls)).filter (isResult lower tenantId query)).map (·.withoutEmbedding) := by
    rw [List.filter_filter, List.filter_map]
    refine congrArg (List.map _) (List.filter_congr fun chunk _ => ?_)
    exact Bool.and_comm _ _
  rw [← hrest]
  refine List.Perm.filter _ ((hrows.perm.map _).trans ?_)
  rw [htenant]
  exact (KnowledgeTable.chunks_after_perm calls).filter _

theorem length_rows_le (hrows : (KnowledgeTable.after calls).Ordered tenantId rows) :
    rows.length ≤ (added calls).length := by
  have hperm := (KnowledgeTable.chunks_after_perm calls).length_eq
  rw [KnowledgeTable.chunks, List.length_map, List.length_map] at hperm
  calc rows.length
      = ((KnowledgeTable.after calls).rows.values.filter fun row => row.tenantId = tenantId).length := hrows.perm.length_eq
    _ ≤ (KnowledgeTable.after calls).rows.values.length := List.length_filter_le ..
    _ = (lastOfEach (·.key) (added calls)).length := hperm
    _ ≤ (added calls).length := (lastOfEach_sublist ..).length_le

variable (lower) in
/-- What the list's search returns. -/
theorem search_memory_spec (calls : List ChunkBatch) (tenantId query : String) {limit : Int}
    (hlimit : ((added calls).length : Int) ≤ limit) :
    ((KnowledgeMemory.after calls).search lower tenantId query limit).Perm
        ((added calls).filter (isResult lower tenantId query)) ∧
      ((KnowledgeMemory.after calls).search lower tenantId query limit).Pairwise fun chunk chunk' =>
        score lower (normalized lower query) chunk' ≤ score lower (normalized lower query) chunk := by
  have hlength : ((((added calls).filter fun chunk => chunk.tenantId = tenantId).length : Nat) : Int) ≤ limit := by
    have hle := List.length_filter_le (fun chunk : KnowledgeChunk => decide (chunk.tenantId = tenantId)) (added calls)
    omega
  have hresults : ((added calls).filter fun chunk => chunk.tenantId = tenantId).filter
      (isMatch lower (normalized lower query)) = (added calls).filter (isResult lower tenantId query) := by
    rw [List.filter_filter]
    exact List.filter_congr fun chunk _ => Bool.and_comm _ _
  rw [after_memory, ← hresults]
  exact rank_spec lower (normalized lower query) hlength

variable (lower) in
/-- What the table's search returns, of the first 300 rows. -/
theorem search_table_spec (hrows : (KnowledgeTable.after calls).Ordered tenantId rows) (query : String) {limit : Int}
    (hlimit : ((added calls).length : Int) ≤ limit) :
    (KnowledgeTable.search lower rows query limit).Perm
        (((rows.take 300).map (·.toChunk)).filter (isMatch lower (normalized lower query))) ∧
      (KnowledgeTable.search lower rows query limit).Pairwise fun chunk chunk' =>
        score lower (normalized lower query) chunk' ≤ score lower (normalized lower query) chunk := by
  refine rank_spec lower (normalized lower query) ?_
  have hle := length_rows_le hrows
  rw [List.length_map, List.length_take]
  omega

/-- The first rows have all that match exactly if no later row does. -/
theorem window_eq_iff (p : KnowledgeChunk → Bool) (n : Nat) (rows : List ChunkRow) :
    ((rows.take n).map (·.toChunk)).filter p = (rows.map (·.toChunk)).filter p ↔
      ∀ row ∈ rows.drop n, p row.toChunk = false := by
  have hwindow : (rows.map (·.toChunk)).filter p =
      ((rows.take n).map (·.toChunk)).filter p ++ ((rows.drop n).map (·.toChunk)).filter p := by
    rw [← List.filter_append, ← List.map_append, List.take_append_drop]
  rw [hwindow, List.self_eq_append_right, List.filter_eq_nil_iff, List.forall_mem_map]
  simp only [Bool.not_eq_true]

theorem withoutEmbedding_eq_iff (chunk : KnowledgeChunk) : chunk.withoutEmbedding = chunk ↔ chunk.embedding = none := by
  constructor
  · exact fun h => (congrArg KnowledgeChunk.embedding h).symm
  · intro h
    cases chunk
    cases h
    rfl

/-- With a limit that leaves nothing out, both modes return the same chunks, up to
the order of equal scores, exactly if no result was added again under its key, no
row beyond the first 300 is a result, and no result has an embedding. -/
theorem modes_same_results_iff (lower : String → String) (calls : List ChunkBatch) {tenantId : String}
    {rows : List ChunkRow} (hrows : (KnowledgeTable.after calls).Ordered tenantId rows) (query : String) {limit : Int}
    (hlimit : ((added calls).length : Int) ≤ limit) :
    SameUpToTies lower (normalized lower query) ((KnowledgeMemory.after calls).search lower tenantId query limit)
        (KnowledgeTable.search lower rows query limit) ↔
      (∀ before chunk after, added calls = before ++ chunk :: after → isResult lower tenantId query chunk = true →
        chunk.key ∉ after.map (·.key)) ∧
      (∀ row ∈ rows.drop 300, isMatch lower (normalized lower query) row.toChunk = false) ∧
      ∀ chunk ∈ added calls, isResult lower tenantId query chunk = true → chunk.embedding = none := by
  obtain ⟨hmem, hmemSorted⟩ := search_memory_spec lower calls tenantId query hlimit
  obtain ⟨hdb, hdbSorted⟩ := search_table_spec lower hrows query hlimit
  have hlast := (lastOfEach_sublist (·.key) (added calls)).filter (isResult lower tenantId query)
  have hread : (((rows.take 300).map (·.toChunk)).filter (isMatch lower (normalized lower query))).Sublist
      ((rows.map (·.toChunk)).filter (isMatch lower (normalized lower query))) :=
    ((List.take_sublist 300 rows).map _).filter _
  have hiff := perm_iff_of_sublist (f := KnowledgeChunk.withoutEmbedding) (fun _ => rfl) hlast hread
    (stored_perm hrows query)
  rw [filter_lastOfEach_eq_iff, window_eq_iff] at hiff
  simp only [withoutEmbedding_eq_iff, List.mem_filter, and_imp] at hiff
  rw [sameUpToTies_iff hmemSorted hdbSorted, ← hiff]
  exact ⟨fun hperm => (hmem.symm.trans hperm).trans hdb, fun hperm => (hmem.trans hperm).trans hdb.symm⟩

end Modes

/-- The first chunk of a handbook. -/
def handbook (content : String) : KnowledgeChunk where
  tenantId := "acme"
  sourceId := "handbook"
  chunkId := "0"
  content

/-- It is added. -/
def addHandbook (content : String) (now : Time) : ChunkBatch where
  chunks := [handbook content]
  distinct := List.nodup_singleton _
  serverNow _ := now

/-- A single row is in order. -/
theorem ordered_singleton {table : KnowledgeTable} {row : ChunkRow}
    (h : (table.rows.values.filter fun row => row.tenantId = "acme") = [row]) : table.Ordered "acme" [row] where
  perm := h ▸ .refl _
  createdAt := List.pairwise_singleton ..

/-- Other pieces of the handbook. -/
def menu (content : String) : KnowledgeChunk := { handbook content with chunkId := "1" }

def security : KnowledgeChunk := { handbook "security policy and travel policy" with chunkId := "2" }

/-- Two tenants add chunks, and the menu is added once more. -/
def libraryBatches : List ChunkBatch := [
  ⟨[handbook "travel policy", menu "soup"], by decide, fun _ => 0⟩,
  ⟨[{ handbook "leave policy" with tenantId := "globex" }, security], by decide, fun _ => 1⟩,
  ⟨[menu "stew"], by decide, fun _ => 2⟩]

/-- Both modes find the chunks of the tenant that match, as none of them was added again. -/
theorem handbook_same_results :
    (added libraryBatches).filter (isResult id "acme" "policy") = [handbook "travel policy", security] ∧
      SameUpToTies id (normalized id "policy") ((KnowledgeMemory.after libraryBatches).search id "acme" "policy" 5)
        (KnowledgeTable.search id
          [.ofChunk security 1, .ofChunk (menu "stew") 0, .ofChunk (handbook "travel policy") 0] "policy" 5) := by
  have hrows : (KnowledgeTable.after libraryBatches).Ordered "acme"
      [.ofChunk security 1, .ofChunk (menu "stew") 0, .ofChunk (handbook "travel policy") 0] :=
    ⟨by decide +kernel, by decide +kernel⟩
  refine ⟨by decide +kernel, (modes_same_results_iff id libraryBatches hrows "policy" (by decide)).2
    ⟨fun before chunk after hsplit hresult => ?_, by decide +kernel, by decide +kernel⟩⟩
  -- the condition at every chunk with those that were added after it
  have hsuffixes : ∀ suffix ∈ (added libraryBatches).tails, ∀ chunk ∈ suffix.head?,
      isResult id "acme" "policy" chunk = true → chunk.key ∉ suffix.tail.map (·.key) := by
    decide +kernel
  have hsuffix : chunk :: after ∈ (added libraryBatches).tails := (List.mem_tails ..).2 ⟨before, hsplit.symm⟩
  exact hsuffixes (chunk :: after) hsuffix chunk rfl hresult

/-- When the chunk is added again, the list returns both contents. -/
theorem handbook_again_differs :
    ∃ rows, (KnowledgeTable.after [addHandbook "travel policy" 0, addHandbook "new policy" 1]).Ordered "acme" rows ∧
      ¬ SameUpToTies id (normalized id "policy")
        ((KnowledgeMemory.after [addHandbook "travel policy" 0, addHandbook "new policy" 1]).search id "acme" "policy" 5)
        (KnowledgeTable.search id rows "policy" 5) := by
  refine ⟨[.ofChunk (handbook "new policy") 0], ordered_singleton (by decide +kernel), ?_⟩
  rintro ⟨hperm, -⟩
  have hmem : (rank id [handbook "travel policy", handbook "new policy"] (normalized id "policy") 5).length = _ :=
    (rank_spec id _ (by decide)).1.length_eq
  have hdb : (rank id [handbook "new policy"] (normalized id "policy") 5).length = _ :=
    (rank_spec id _ (by decide)).1.length_eq
  have hlength := (hmem.symm.trans hperm.length_eq).trans hdb
  exact absurd hlength (by decide +kernel)

end Ochestrate
