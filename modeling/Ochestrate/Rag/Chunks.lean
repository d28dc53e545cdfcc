import Mathlib.Data.String.Basic
import Ochestrate.Framework.Slices
import Ochestrate.Rag.Ingestion

/-!
# The chunks of a text

Without a splitter a text is cut at every multiple of the chunk size. The hashed
text of an id ends in the digits of the index after a colon, so it is read from
its end and gives the source and the index back, whatever the source is
(`idText_inj`).
-/

namespace Ochestrate

namespace IngestionPipeline

theorem pieces_eq (text : String) (chunkSize : Nat) :
    pieces text chunkSize = (slices chunkSize text.toList).map .ofList := by
  rw [pieces, slices, List.map_map]
  rfl

/-- The pieces of a text in their order are the text. -/
theorem join_pieces {chunkSize : Nat} (h : 1 ≤ chunkSize) (text : String) :
    String.join (pieces text chunkSize) = text := by
  have hchars : ((slices chunkSize text.toList).map String.ofList).flatMap String.toList = text.toList := by
    rw [List.flatMap_map, List.flatMap_congr fun slice _ => String.toList_ofList (l := slice)]
    exact (List.flatMap_id ..).trans (flatten_slices h text.toList)
  rw [← String.toList_inj, String.toList_join, pieces_eq, hchars]

/-! ## Ids -/

/-- The text that is hashed for an id. -/
def idText (sourceId : String) (idx : Nat) : String := sourceId ++ ":" ++ toString idx

theorem toString_inj {idx idx' : Nat} (h : toString idx = toString idx') : idx = idx' := by
  have hdigits := congrArg String.toList h
  rw [Nat.toString_eq_ofList_toDigits, Nat.toString_eq_ofList_toDigits, String.toList_ofList,
    String.toList_ofList] at hdigits
  rw [← Nat.ofDigitChars_ten_toDigits (n := idx), hdigits, Nat.ofDigitChars_ten_toDigits]

theorem colon_notMem_toString (idx : Nat) : ':' ∉ (toString idx).toList := by
  rw [Nat.toString_eq_ofList_toDigits, String.toList_ofList]
  intro hmem
  exact absurd (Nat.isDigit_of_mem_toDigits (by decide) (by decide) hmem) (by decide)

/-- The digits after the last colon are the index. -/
theorem idText_inj {sourceId sourceId' : String} {idx idx' : Nat} (h : idText sourceId idx = idText sourceId' idx') :
    sourceId = sourceId' ∧ idx = idx' := by
  have hchars : (toString idx).toList.reverse ++ ':' :: sourceId.toList.reverse =
      (toString idx').toList.reverse ++ ':' :: sourceId'.toList.reverse := by
    have hreverse := congrArg (fun text => text.toList.reverse) h
    simpa [idText] using hreverse
  obtain ⟨hidx, hsource⟩ := separated_inj (fun hmem => colon_notMem_toString idx (List.mem_reverse.1 hmem))
    (fun hmem => colon_notMem_toString idx' (List.mem_reverse.1 hmem)) hchars
  rw [List.reverse_inj, String.toList_inj] at hidx hsource
  exact ⟨hsource, toString_inj hidx⟩

variable {md5 : String → String}

theorem chunkId_inj (hmd5 : Function.Injective md5) {sourceId sourceId' : String} {idx idx' : Nat}
    (h : chunkId md5 sourceId idx = chunkId md5 sourceId' idx') : (sourceId, idx) = (sourceId', idx') := by
  obtain ⟨hsource, hidx⟩ := idText_inj (hmd5 h)
  rw [hsource, hidx]

/-! ## Chunks -/

variable {tenantId sourceId text : String} {chunkSize : Nat}

theorem map_content_ingestText (pipeline : IngestionPipeline) :
    (pipeline.ingestText md5 tenantId sourceId text chunkSize).map (·.content) = pipeline.rawChunks text chunkSize := by
  refine List.ext_getElem? fun idx => ?_
  rw [ingestText, List.getElem?_map, List.getElem?_mapIdx, Option.map_map]
  exact Option.map_id_apply

/-- The chunk at an index is a slice of the text, under the id of the index. -/
theorem getElem?_ingestText {i : Nat} {chunk : KnowledgeChunk}
    (h : ((⟨none⟩ : IngestionPipeline).ingestText md5 tenantId sourceId text chunkSize)[i]? = some chunk) :
    ∃ slice, (slices chunkSize text.toList)[i]? = some slice ∧ chunk.content = .ofList slice ∧
      chunk.chunkId = chunkId md5 sourceId i ∧ chunk.metadata.get? "index" = some (.int i) := by
  rw [ingestText, rawChunks, pieces_eq, List.getElem?_mapIdx, List.getElem?_map, Option.map_map] at h
  obtain ⟨slice, hslice, rfl⟩ := Option.map_eq_some_iff.1 h
  exact ⟨slice, hslice, rfl, rfl, rfl⟩

/-- Chunks of a text that is cut at a fixed length: in their order they are the
text, no chunk is empty or too long, all but the last are full, and no two ids
of chunks are the same, of this source or of others. -/
theorem ingestText_spec (md5 : String → String) (hmd5 : Function.Injective md5) (tenantId sourceId text : String)
    (chunkSize : Nat) (h : 1 ≤ chunkSize) :
    let chunks := (⟨none⟩ : IngestionPipeline).ingestText md5 tenantId sourceId text chunkSize
    String.join (chunks.map (·.content)) = text ∧
      (∀ (i : Nat) (chunk : KnowledgeChunk), chunks[i]? = some chunk →
        chunk.metadata.get? "index" = some (.int i) ∧ chunk.chunkId = chunkId md5 sourceId i ∧
        1 ≤ chunk.content.length ∧ chunk.content.length ≤ chunkSize ∧
        (i + 1 < chunks.length → chunk.content.length = chunkSize)) ∧
      (chunks.map (·.chunkId)).Nodup ∧
      ∀ (sourceId' : String) (i i' : Nat), (sourceId, i) ≠ (sourceId', i') →
        chunkId md5 sourceId i ≠ chunkId md5 sourceId' i' := by
  intro chunks
  have hlength : chunks.length = (slices chunkSize text.toList).length := by
    rw [← List.length_map (·.content), map_content_ingestText, rawChunks, pieces_eq, List.length_map]
  refine ⟨?_, fun i chunk hchunk => ?_, ?_, fun sourceId' i i' hne heq => hne (chunkId_inj hmd5 heq)⟩
  · rw [map_content_ingestText]
    exact join_pieces h text
  · obtain ⟨slice, hslice, hcontent, hid, hindex⟩ := getElem?_ingestText hchunk
    rw [hcontent, String.length_ofList, hlength]
    exact ⟨hindex, hid, length_of_getElem?_slices h hslice⟩
  · have hids : chunks.map (·.chunkId) = (List.range chunks.length).map (chunkId md5 sourceId) := by
      refine List.ext_getElem? fun i => ?_
      rw [List.getElem?_map, List.getElem?_map]
      cases hchunk : chunks[i]? with
      | none => rw [List.getElem?_eq_none (by simpa using List.getElem?_eq_none_iff.1 hchunk)]; rfl
      | some chunk =>
        rw [List.getElem?_range (List.getElem?_eq_some_iff.1 hchunk).1]
        exact congrArg some (getElem?_ingestText hchunk).choose_spec.2.2.1
    rw [hids]
    exact List.nodup_range.map fun i i' heq => (Prod.mk.inj (chunkId_inj hmd5 heq)).2

/-- The digests of two texts; the other texts stand for theirs. -/
def docDigests (text : String) : String :=
  if text = "doc:0" then "8a1bc988245673b48b9c90d8d62a84e5"
  else if text = "doc:1" then "48e8f819f4cc1b4762bb279bdc4349ad"
  else "x" ++ text

theorem docDigests_injective : Function.Injective docDigests := by
  have hother : ∀ text digest : String, digest.toList.head? ≠ some 'x' → "x" ++ text ≠ digest := by
    intro text digest hdigest heq
    refine hdigest ?_
    rw [← heq, String.toList_append]
    rfl
  intro text text' h
  unfold docDigests at h
  split at h
  · split at h
    · simp_all
    · split at h
      · exact absurd h (by decide)
      · exact absurd h.symm (hother _ _ (by decide))
  · split at h
    · split at h
      · exact absurd h (by decide)
      · split at h
        · simp_all
        · exact absurd h.symm (hother _ _ (by decide))
    · split at h
      · exact absurd h (hother _ _ (by decide))
      · split at h
        · exact absurd h (hother _ _ (by decide))
        · simpa using h

theorem ingestText_spec_doc :
    (1 ≤ 4) ∧ String.join (((⟨none⟩ : IngestionPipeline).ingestText docDigests "acme" "doc" "policy" 4).map (·.content)) =
      "policy" :=
  ⟨by decide, (ingestText_spec docDigests docDigests_injective "acme" "doc" "policy" 4 (by decide)).1⟩

end IngestionPipeline

end Ochestrate
