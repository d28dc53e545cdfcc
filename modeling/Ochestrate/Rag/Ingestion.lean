import Ochestrate.Storage.KnowledgeRepo

/-!
# The ingestion pipeline

`app/rag/ingestion.py`: a text becomes chunks whose ids are hashes of the source
and the index. `splitter` is the `split_text` of the installed sentence
splitter, `md5` the hexadecimal digest of the hash.
-/

namespace Ochestrate

structure IngestionPipeline where
  splitter : Option (String → List String)

namespace IngestionPipeline

/-- `[text[idx : idx + chunk_size] for idx in range(0, len(text), chunk_size)]` -/
def pieces (text : String) (chunkSize : Nat) : List String :=
  (List.range ((text.toList.length + chunkSize - 1) / chunkSize)).map fun i =>
    .ofList ((text.toList.drop (i * chunkSize)).take chunkSize)

def rawChunks (pipeline : IngestionPipeline) (text : String) (chunkSize : Nat) : List String :=
  match pipeline.splitter with
  | some splitText => splitText text
  | none => pieces text chunkSize

variable (md5 : String → String)

/-- The id of a chunk of a source; every text counts as one that can be encoded. -/
def chunkId (sourceId : String) (idx : Nat) : String := md5 (sourceId ++ ":" ++ toString idx)

def ingestText (pipeline : IngestionPipeline) (tenantId sourceId text : String) (chunkSize : Nat := 600) :
    List KnowledgeChunk :=
  (pipeline.rawChunks text chunkSize).mapIdx fun idx content => {
    tenantId
    sourceId
    chunkId := chunkId md5 sourceId idx
    content
    metadata := Dict.empty.set "index" (.int idx) }

variable {md5} {pipeline : IngestionPipeline} {tenantId sourceId text : String} {chunkSize : Nat}

/-- The chunks of a text belong to its source, and lack embeddings. -/
theorem of_mem_ingestText {chunk : KnowledgeChunk} (h : chunk ∈ pipeline.ingestText md5 tenantId sourceId text chunkSize) :
    chunk.tenantId = tenantId ∧ chunk.sourceId = sourceId ∧ chunk.withoutEmbedding = chunk := by
  obtain ⟨idx, hidx, rfl⟩ := List.mem_mapIdx.1 h
  exact ⟨rfl, rfl, rfl⟩

/-- The ids of the chunks of a text. -/
theorem map_key_ingestText :
    (pipeline.ingestText md5 tenantId sourceId text chunkSize).map (·.key) =
      (List.range (pipeline.rawChunks text chunkSize).length).map fun idx =>
        ⟨tenantId, sourceId, chunkId md5 sourceId idx⟩ := by
  refine List.ext_getElem? fun idx => ?_
  simp only [ingestText, List.getElem?_map, List.getElem?_mapIdx]
  by_cases hidx : idx < (pipeline.rawChunks text chunkSize).length
  · rw [List.getElem?_eq_getElem hidx, List.getElem?_range hidx]
    rfl
  · rw [List.getElem?_eq_none (by omega), List.getElem?_eq_none (by rw [List.length_range]; omega)]
    rfl

end IngestionPipeline

end Ochestrate
