import Ochestrate.Api.Errors
import Ochestrate.Api.RequestContext
import Ochestrate.Framework.Machine
import Ochestrate.Rag.Ingestion

/-!
# Ingesting texts

`app/api/v1/knowledge.py` over the table `knowledge_chunks`. A text replaces the
last one of its source chunk by chunk, under ids that count the chunks, so the
rest of a longer text stays: `sources_hold_last_iff` says in which runs every
source has exactly the chunks of its last text.
-/

namespace Ochestrate

open KnowledgeTable (lastUnder)

/-- The response to an accepted text. -/
structure IngestResponse where
  accepted : Bool
  chunks : Nat
  deriving DecidableEq, Repr

namespace KnowledgeTable

/-- `add_chunks` as a statement over the database. -/
def addingChunks (serverNow : ChunkKey → Time) (chunks : List KnowledgeChunk) : EStateM Exc KnowledgeTable PUnit :=
  fun table =>
    match table.addChunks serverNow chunks with
    | .ok table' => .ok ⟨⟩ table'
    | .error exc => .error exc table

/-- The chunks of a source of a tenant. -/
def chunksOf (table : KnowledgeTable) (tenantId sourceId : String) : List KnowledgeChunk :=
  table.chunks.filter fun chunk => chunk.tenantId = tenantId && chunk.sourceId = sourceId

end KnowledgeTable

variable (md5 : String → String) (pipeline : IngestionPipeline)

/-- The chunks that a request adds. -/
def requestChunks (payload : IngestTextRequest) (auth : AuthContext) : List KnowledgeChunk :=
  let scopedPayload := bindIngestAuth payload auth
  pipeline.ingestText md5 (scopedPayload.tenantId.getD "") scopedPayload.sourceId scopedPayload.text

/-- `POST /knowledge/ingest-text` -/
def ingestText (payload : IngestTextRequest) (auth : AuthContext) (serverNow : ChunkKey → Time) :
    EStateM HttpError KnowledgeTable IngestResponse :=
  answering (fun _ => internalServerError) do
    let chunks := requestChunks md5 pipeline payload auth
    KnowledgeTable.addingChunks serverNow chunks
    return { accepted := true, chunks := chunks.length }

/-- A request, and the server's `current_timestamp` when a row is inserted. -/
structure IngestEvent where
  payload : IngestTextRequest
  auth : AuthContext
  serverNow : ChunkKey → Time

/-- The table, and the text that was accepted last for each source of a tenant. -/
structure IngestState where
  table : KnowledgeTable := .empty
  lastText : Dict (String × String) String := .empty

/-- Requests one after the other. -/
def ingestMachine : Machine IngestState IngestEvent where
  step s e :=
    match ingestText md5 pipeline e.payload e.auth e.serverNow s.table with
    | .ok _ table => some { table, lastText := s.lastText.set (e.auth.tenantId, e.payload.sourceId) e.payload.text }
    | .error _ table => some { s with table }

/-- The chunks of the text that was accepted last, if one was. -/
def lastChunks (s : IngestState) (tenantId sourceId : String) : List KnowledgeChunk :=
  match s.lastText.get? (tenantId, sourceId) with
  | none => []
  | some text => pipeline.ingestText md5 tenantId sourceId text

/-- Every source has exactly the chunks of its last text. -/
def SourcesHoldLast (s : IngestState) : Prop :=
  ∀ tenantId sourceId, (s.table.chunksOf tenantId sourceId).Perm (lastChunks md5 pipeline s tenantId sourceId)

/-- A request leaves the rows of all other sources as they are. -/
def LeavesOthers (s : IngestState) (e : IngestEvent) : Prop :=
  ∀ s', (ingestMachine md5 pipeline).step s e = some s' → ∀ key : ChunkKey,
    (key.tenantId, key.sourceId) ≠ (e.auth.tenantId, e.payload.sourceId) →
      s'.table.rows.get? key = s.table.rows.get? key

/-- The request fails because two new chunks have one id, or all its chunks have
different ids and each stored chunk of the source has one of them. -/
def Replaces (s : IngestState) (e : IngestEvent) : Prop :=
  let chunks := requestChunks md5 pipeline e.payload e.auth
  ¬ ((chunks.filter s.table.isNew).map (·.key)).Nodup ∨
    (chunks.map (·.key)).Nodup ∧
      ∀ chunk ∈ s.table.chunksOf e.auth.tenantId e.payload.sourceId, chunk.key ∈ chunks.map (·.key)

variable {md5 pipeline} {s s' : IngestState} {e : IngestEvent}

theorem mem_chunksOf {table : KnowledgeTable} {tenantId sourceId : String} {chunk : KnowledgeChunk} :
    chunk ∈ table.chunksOf tenantId sourceId ↔
      table.chunkUnder chunk.key = some chunk ∧ chunk.tenantId = tenantId ∧ chunk.sourceId = sourceId := by
  rw [KnowledgeTable.chunksOf, List.mem_filter, KnowledgeTable.mem_chunks, Bool.and_eq_true, decide_eq_true_eq,
    decide_eq_true_eq]

/-- The chunks of a request are its source's. -/
theorem of_mem_requestChunks {chunk : KnowledgeChunk} (h : chunk ∈ requestChunks md5 pipeline e.payload e.auth) :
    chunk.tenantId = e.auth.tenantId ∧ chunk.sourceId = e.payload.sourceId ∧ chunk.withoutEmbedding = chunk :=
  IngestionPipeline.of_mem_ingestText h

/-- What a request does: it fails and changes nothing, or its chunks replace those
with the same keys. -/
theorem step_cases (h : (ingestMachine md5 pipeline).step s e = some s') :
    (¬ (((requestChunks md5 pipeline e.payload e.auth).filter s.table.isNew).map (·.key)).Nodup ∧ s' = s) ∨
      (((requestChunks md5 pipeline e.payload e.auth).filter s.table.isNew).map (·.key)).Nodup ∧
        s.table.addChunks e.serverNow (requestChunks md5 pipeline e.payload e.auth) = .ok s'.table ∧
        s'.lastText = s.lastText.set (e.auth.tenantId, e.payload.sourceId) e.payload.text := by
  have hspec := s.table.addChunks_spec e.serverNow (requestChunks md5 pipeline e.payload e.auth)
  simp only [ingestMachine, ingestText, answering] at h
  split at hspec
  · next hkeys =>
    obtain ⟨table', hok, -⟩ := hspec
    have hadding : KnowledgeTable.addingChunks e.serverNow (requestChunks md5 pipeline e.payload e.auth) s.table =
        .ok ⟨⟩ table' := by
      simp only [KnowledgeTable.addingChunks, hok]
    rw [bind_ok hadding] at h
    refine .inr ⟨hkeys, ?_⟩
    rw [← Option.some.inj h]
    exact ⟨hok, rfl⟩
  · next hkeys =>
    obtain ⟨exc, herror⟩ := hspec
    have hadding : KnowledgeTable.addingChunks e.serverNow (requestChunks md5 pipeline e.payload e.auth) s.table =
        .error exc s.table := by
      simp only [KnowledgeTable.addingChunks, herror]
    rw [bind_error hadding] at h
    exact .inl ⟨hkeys, (Option.some.inj h).symm⟩

/-- A chunk with another key keeps its row. -/
theorem step_leavesOthers (s : IngestState) (e : IngestEvent) : LeavesOthers md5 pipeline s e := by
  intro s' hstep key hother
  rcases step_cases hstep with ⟨-, rfl⟩ | ⟨hkeys, hok, -⟩
  · rfl
  · have hspec := s.table.addChunks_spec e.serverNow (requestChunks md5 pipeline e.payload e.auth)
    rw [if_pos hkeys] at hspec
    obtain ⟨table', hok', hrows⟩ := hspec
    rw [hok] at hok'
    have habsent : lastUnder (requestChunks md5 pipeline e.payload e.auth) key = none := by
      refine lastWhere_eq_none.2 fun chunk hmem => decide_eq_false fun hkey => hother ?_
      obtain ⟨htenant, hsource, -⟩ := of_mem_requestChunks hmem
      rw [← hkey, ← htenant, ← hsource]
      rfl
    rw [Except.ok.inj hok', hrows, habsent]
    rfl

theorem nodup_chunksOf (table : KnowledgeTable) (tenantId sourceId : String) :
    ((table.chunksOf tenantId sourceId).map (·.key)).Nodup :=
  table.nodup_chunks.sublist (List.filter_sublist.map _)

/-- A source has given chunks exactly if they replace all it had. -/
theorem chunksOf_perm_iff {table table' : KnowledgeTable} {serverNow : ChunkKey → Time} {chunks : List KnowledgeChunk}
    {tenantId sourceId : String} (h : table.addChunks serverNow chunks = .ok table')
    (hchunks : ∀ chunk ∈ chunks, chunk.tenantId = tenantId ∧ chunk.sourceId = sourceId ∧ chunk.withoutEmbedding = chunk) :
    (table'.chunksOf tenantId sourceId).Perm chunks ↔
      (chunks.map (·.key)).Nodup ∧ ∀ chunk ∈ table.chunksOf tenantId sourceId, chunk.key ∈ chunks.map (·.key) := by
  have hunder := KnowledgeTable.chunkUnder_addChunks h
  constructor
  · intro hperm
    refine ⟨(hperm.map _).nodup_iff.1 (nodup_chunksOf ..), fun chunk hmem => ?_⟩
    rw [mem_chunksOf] at hmem
    cases hlast : lastUnder chunks chunk.key with
    | some chunk' =>
      obtain ⟨hkey, hmem'⟩ := lastWhere_some hlast
      exact List.mem_map.2 ⟨chunk', hmem', of_decide_eq_true hkey⟩
    | none =>
      have hstays := hunder chunk.key
      rw [hlast, hmem.1] at hstays
      exact List.mem_map_of_mem (hperm.subset (mem_chunksOf.2 ⟨hstays, hmem.2⟩))
  · rintro ⟨hnodup, hcovers⟩
    rw [List.perm_ext_iff_of_nodup (.of_map _ (nodup_chunksOf ..)) (.of_map _ hnodup)]
    intro chunk
    rw [mem_chunksOf, hunder]
    constructor
    · rintro ⟨hchunk, htenant, hsource⟩
      cases hlast : lastUnder chunks chunk.key with
      | some chunk' =>
        obtain ⟨-, hmem'⟩ := lastWhere_some hlast
        rw [hlast, Option.map_some, Option.some_or, (hchunks chunk' hmem').2.2, Option.some.injEq] at hchunk
        rw [← hchunk]
        exact hmem'
      | none =>
        rw [hlast] at hchunk
        obtain ⟨chunk', hmem', hkey⟩ := List.mem_map.1 (hcovers chunk (mem_chunksOf.2 ⟨hchunk, htenant, hsource⟩))
        exact absurd hkey (of_decide_eq_false (lastWhere_eq_none.1 hlast chunk' hmem'))
    · intro hmem
      obtain ⟨htenant, hsource, hembedding⟩ := hchunks chunk hmem
      have hlast : lastUnder chunks chunk.key = some chunk := by
        cases hlast : lastUnder chunks chunk.key with
        | none => exact absurd rfl (of_decide_eq_false (lastWhere_eq_none.1 hlast chunk hmem))
        | some chunk' =>
          obtain ⟨hkey, hmem'⟩ := lastWhere_some hlast
          rw [List.inj_on_of_nodup_map hnodup hmem' hmem (of_decide_eq_true hkey)]
      rw [hlast, Option.map_some, Option.some_or, hembedding]
      exact ⟨rfl, htenant, hsource⟩

/-- Rows that stay keep a source as it is. -/
theorem chunksOf_perm_of_rows {table table' : KnowledgeTable} {tenantId sourceId : String}
    (h : ∀ key : ChunkKey, key.tenantId = tenantId → key.sourceId = sourceId →
      table'.rows.get? key = table.rows.get? key) :
    (table'.chunksOf tenantId sourceId).Perm (table.chunksOf tenantId sourceId) := by
  rw [List.perm_ext_iff_of_nodup (.of_map _ (nodup_chunksOf ..)) (.of_map _ (nodup_chunksOf ..))]
  intro chunk
  rw [mem_chunksOf, mem_chunksOf]
  refine and_congr_left fun hsource => ?_
  rw [KnowledgeTable.chunkUnder, KnowledgeTable.chunkUnder, h chunk.key hsource.1 hsource.2]

variable (md5 pipeline) in
/-- Every request is answered. -/
theorem exists_step (s : IngestState) (e : IngestEvent) : ∃ s', (ingestMachine md5 pipeline).step s e = some s' := by
  simp only [ingestMachine]
  split
  · exact ⟨_, rfl⟩
  · exact ⟨_, rfl⟩

/-- A request keeps every source at its last text exactly if it replaces all
chunks of its own source, or fails. -/
theorem step_holdLast_iff (h : SourcesHoldLast md5 pipeline s) :
    (∀ s', (ingestMachine md5 pipeline).step s e = some s' → SourcesHoldLast md5 pipeline s') ↔
      Replaces md5 pipeline s e := by
  obtain ⟨s', hstep⟩ := exists_step md5 pipeline s e
  simp only [hstep, Option.some.injEq, forall_eq', Replaces]
  rcases step_cases hstep with ⟨hkeys, rfl⟩ | ⟨hkeys, hok, htext⟩
  · exact ⟨fun _ => .inl hkeys, fun _ => h⟩
  · have hown : lastChunks md5 pipeline s' e.auth.tenantId e.payload.sourceId =
        requestChunks md5 pipeline e.payload e.auth := by
      rw [lastChunks, htext, Dict.get?_set_self]
      rfl
    have hchunks : ∀ chunk ∈ requestChunks md5 pipeline e.payload e.auth,
        chunk.tenantId = e.auth.tenantId ∧ chunk.sourceId = e.payload.sourceId ∧ chunk.withoutEmbedding = chunk :=
      fun chunk hmem => of_mem_requestChunks hmem
    have hiff := chunksOf_perm_iff hok hchunks
    rw [or_iff_right (not_not_intro hkeys), ← hiff, ← hown]
    constructor
    · exact fun hall => hall e.auth.tenantId e.payload.sourceId
    · intro hperm tenantId sourceId
      by_cases hsame : (tenantId, sourceId) = (e.auth.tenantId, e.payload.sourceId)
      · obtain ⟨rfl, rfl⟩ := Prod.mk.inj hsame
        exact hperm
      · have hlast : lastChunks md5 pipeline s' tenantId sourceId = lastChunks md5 pipeline s tenantId sourceId := by
          rw [lastChunks, htext, Dict.get?_set_ne _ _ hsame]
          rfl
        rw [hlast]
        refine (chunksOf_perm_of_rows fun key htenant hsource => ?_).trans (h tenantId sourceId)
        exact step_leavesOthers s e s' hstep key (by rw [htenant, hsource]; exact hsame)

theorem map_key_requestChunks : (requestChunks md5 pipeline e.payload e.auth).map (·.key) =
    (List.range (pipeline.rawChunks e.payload.text 600).length).map fun idx =>
      ⟨e.auth.tenantId, e.payload.sourceId, IngestionPipeline.chunkId md5 e.payload.sourceId idx⟩ :=
  IngestionPipeline.map_key_ingestText

/-- If the ids of a source differ, so do the keys of a text. -/
theorem nodup_requestChunks
    (hids : ∀ i < (pipeline.rawChunks e.payload.text 600).length, ∀ j < (pipeline.rawChunks e.payload.text 600).length,
      IngestionPipeline.chunkId md5 e.payload.sourceId i = IngestionPipeline.chunkId md5 e.payload.sourceId j → i = j) :
    ((requestChunks md5 pipeline e.payload e.auth).map (·.key)).Nodup := by
  rw [map_key_requestChunks]
  refine List.Nodup.map_on (fun i hi j hj hkey => ?_) List.nodup_range
  rw [List.mem_range] at hi hj
  exact hids i hi j hj (congrArg ChunkKey.chunkId hkey)

/-- If the ids of a source differ, a text replaces the last one exactly if it has
as many chunks. -/
theorem replaces_iff_length (h : SourcesHoldLast md5 pipeline s) {text : String}
    (htext : s.lastText.get? (e.auth.tenantId, e.payload.sourceId) = some text)
    (hids : ∀ i < max (pipeline.rawChunks text 600).length (pipeline.rawChunks e.payload.text 600).length,
      ∀ j < max (pipeline.rawChunks text 600).length (pipeline.rawChunks e.payload.text 600).length,
        IngestionPipeline.chunkId md5 e.payload.sourceId i = IngestionPipeline.chunkId md5 e.payload.sourceId j → i = j) :
    Replaces md5 pipeline s e ↔
      (pipeline.rawChunks text 600).length ≤ (pipeline.rawChunks e.payload.text 600).length := by
  have hlast : (lastChunks md5 pipeline s e.auth.tenantId e.payload.sourceId).map (·.key) =
      (List.range (pipeline.rawChunks text 600).length).map fun idx =>
        ⟨e.auth.tenantId, e.payload.sourceId, IngestionPipeline.chunkId md5 e.payload.sourceId idx⟩ := by
    rw [lastChunks, htext]
    exact IngestionPipeline.map_key_ingestText
  have hnodup : ((requestChunks md5 pipeline e.payload e.auth).map (·.key)).Nodup :=
    nodup_requestChunks fun i hi j hj => hids i (by omega) j (by omega)
  have hkeys : (∀ chunk ∈ s.table.chunksOf e.auth.tenantId e.payload.sourceId,
        chunk.key ∈ (requestChunks md5 pipeline e.payload e.auth).map (·.key)) ↔
      ∀ key ∈ (lastChunks md5 pipeline s e.auth.tenantId e.payload.sourceId).map (·.key),
        key ∈ (requestChunks md5 pipeline e.payload e.auth).map (·.key) := by
    rw [List.forall_mem_map]
    exact forall_congr' fun chunk => imp_congr (h e.auth.tenantId e.payload.sourceId).mem_iff Iff.rfl
  have hfilter : (((requestChunks md5 pipeline e.payload e.auth).filter s.table.isNew).map (·.key)).Nodup :=
    hnodup.sublist (List.filter_sublist.map _)
  rw [Replaces, or_iff_right (not_not_intro hfilter), and_iff_right hnodup, hkeys, hlast, map_key_requestChunks,
    List.forall_mem_map]
  constructor
  · intro hcovers
    by_contra hlt
    obtain ⟨idx, hidx, hkey⟩ := List.mem_map.1 (hcovers (pipeline.rawChunks e.payload.text 600).length
      (List.mem_range.2 (by omega)))
    rw [List.mem_range] at hidx
    have hsame := hids idx (by omega) _ (by omega) (congrArg ChunkKey.chunkId hkey)
    omega
  · intro hle idx hidx
    rw [List.mem_range] at hidx
    exact List.mem_map.2 ⟨idx, List.mem_range.2 (by omega), rfl⟩

theorem empty_holdLast : SourcesHoldLast md5 pipeline {} := fun _ _ => .refl _

/-- A text with fewer chunks leaves some of the text before it. -/
theorem not_meets_of_shorter (e e' : IngestEvent) (htenant : e'.auth.tenantId = e.auth.tenantId)
    (hsource : e'.payload.sourceId = e.payload.sourceId)
    (hids : ∀ i < (pipeline.rawChunks e.payload.text 600).length, ∀ j < (pipeline.rawChunks e.payload.text 600).length,
      IngestionPipeline.chunkId md5 e.payload.sourceId i = IngestionPipeline.chunkId md5 e.payload.sourceId j → i = j)
    (hshorter : (pipeline.rawChunks e'.payload.text 600).length < (pipeline.rawChunks e.payload.text 600).length) :
    ¬ (ingestMachine md5 pipeline).Meets (Replaces md5 pipeline) {} [e, e'] := by
  intro hmeets
  obtain ⟨s, hstep⟩ := exists_step md5 pipeline {} e
  have hhold := (step_holdLast_iff empty_holdLast).2 hmeets.1 s hstep
  have hreplaces := (hmeets.2 s hstep).1
  have htext : s.lastText.get? (e'.auth.tenantId, e'.payload.sourceId) = some e.payload.text := by
    rcases step_cases hstep with ⟨hkeys, -⟩ | ⟨-, -, htext⟩
    · exact absurd ((nodup_requestChunks hids).sublist (List.filter_sublist.map _)) hkeys
    · rw [htext, htenant, hsource]
      exact Dict.get?_set_self ..
  have hle := (replaces_iff_length hhold htext fun i hi j hj => by
    rw [hsource]
    exact hids i (by omega) j (by omega)).1 hreplaces
  omega

/-- In every run of requests from an empty table, each source has exactly the
chunks of its last text, and no request changes another source, exactly if every
request replaces all chunks of its source, or fails. -/
theorem sources_hold_last_iff (md5 : String → String) (pipeline : IngestionPipeline) (requests : List IngestEvent) :
    ((ingestMachine md5 pipeline).Always (SourcesHoldLast md5 pipeline) {} requests ∧
        (ingestMachine md5 pipeline).Meets (LeavesOthers md5 pipeline) {} requests) ↔
      (ingestMachine md5 pipeline).Meets (Replaces md5 pipeline) {} requests := by
  rw [(ingestMachine md5 pipeline).always_iff step_holdLast_iff empty_holdLast]
  exact and_iff_left ((ingestMachine md5 pipeline).meets_of_all step_leavesOthers {} requests)

/-- The digests of the first two ids of the handbook. -/
def handbookMd5 (text : String) : String :=
  if text = "handbook:0" then "3c46dea6ca3639b3f0c9d439f6e68cfb"
  else if text = "handbook:1" then "2755e01e67cf292b5084389ef788dedd"
  else text

/-- A handbook of so many characters, as a pipeline without a sentence splitter
ingests it. -/
def ingestHandbook (length : Nat) (h : length ≠ 0) : IngestEvent where
  payload := {
    sourceId := "handbook"
    text := .ofList (List.replicate length 'a')
    text_ne := by simpa using h }
  auth := someCaller
  serverNow _ := 0

theorem ingestHandbook_source (length : Nat) (h : length ≠ 0) :
    (ingestHandbook length h).auth.tenantId = "acme" ∧ (ingestHandbook length h).payload.sourceId = "handbook" :=
  ⟨rfl, rfl⟩

/-- 601 characters, and then a single one. -/
def handbookRequests : List IngestEvent := [ingestHandbook 601 (by decide), ingestHandbook 1 (by decide)]

theorem length_rawChunks_handbook (length : Nat) (h : length ≠ 0) :
    ((⟨none⟩ : IngestionPipeline).rawChunks (ingestHandbook length h).payload.text 600).length = (length + 599) / 600 := by
  simp [IngestionPipeline.rawChunks, IngestionPipeline.pieces, ingestHandbook]

/-- The second chunk of the first text is still there. -/
theorem handbook_keeps_second_chunk :
    ¬ ((ingestMachine handbookMd5 ⟨none⟩).Always (SourcesHoldLast handbookMd5 ⟨none⟩) {} handbookRequests ∧
        (ingestMachine handbookMd5 ⟨none⟩).Meets (LeavesOthers handbookMd5 ⟨none⟩) {} handbookRequests) := by
  rintro ⟨halways, -⟩
  rw [(ingestMachine handbookMd5 ⟨none⟩).always_iff step_holdLast_iff empty_holdLast] at halways
  have hids : ∀ i < 2, ∀ j < 2, IngestionPipeline.chunkId handbookMd5 "handbook" i =
      IngestionPipeline.chunkId handbookMd5 "handbook" j → i = j := by
    decide +kernel
  obtain ⟨htenant, hsource⟩ := ingestHandbook_source 601 (by decide)
  obtain ⟨htenant', hsource'⟩ := ingestHandbook_source 1 (by decide)
  refine not_meets_of_shorter (ingestHandbook 601 (by decide)) (ingestHandbook 1 (by decide))
    (htenant'.trans htenant.symm) (hsource'.trans hsource.symm) (fun i hi j hj => ?_) ?_ halways
  · rw [length_rawChunks_handbook] at hi hj
    exact hids i hi j hj
  · rw [length_rawChunks_handbook, length_rawChunks_handbook]
    decide

end Ochestrate
