import Mathlib.Data.List.Infix
import Ochestrate.Framework.Candidate
import Ochestrate.Framework.Strings
import Ochestrate.Storage.AuthRepo

/-!
# The knowledge repository

`app/storage/repositories/knowledge_repo.py`, over the list `_mem` and over the
table `knowledge_chunks`. The database returns rows with equal `created_at` in
any order, so a search of the table is given the order (`KnowledgeTable.Ordered`).
`lower` is `str.lower`. `addChunks_spec` says when `add_chunks` succeeds on the
table and what it leaves there.
-/

namespace Ochestrate

/-- The columns of `uk_chunk`. -/
structure ChunkKey where
  tenantId : String
  sourceId : String
  chunkId : String
  deriving DecidableEq

structure KnowledgeChunk where
  tenantId : String
  sourceId : String
  chunkId : String
  content : String
  metadata : Dict String Json := .empty
  embedding : Option (List Rat) := none
  deriving DecidableEq

def KnowledgeChunk.key (chunk : KnowledgeChunk) : ChunkKey := ⟨chunk.tenantId, chunk.sourceId, chunk.chunkId⟩

/-- The chunk without what the table has no column for. -/
def KnowledgeChunk.withoutEmbedding (chunk : KnowledgeChunk) : KnowledgeChunk := { chunk with embedding := none }

/-- `KnowledgeChunkORM`, without the id. -/
structure ChunkRow where
  tenantId : String
  sourceId : String
  chunkId : String
  content : String
  metadataJson : Option (Dict String Json)
  createdAt : Time
  deriving DecidableEq

namespace ChunkRow

def key (row : ChunkRow) : ChunkKey := ⟨row.tenantId, row.sourceId, row.chunkId⟩

/-- A new row; `created_at` is the server's `current_timestamp`. -/
def ofChunk (chunk : KnowledgeChunk) (serverNow : Time) : ChunkRow where
  tenantId := chunk.tenantId
  sourceId := chunk.sourceId
  chunkId := chunk.chunkId
  content := chunk.content
  metadataJson := some chunk.metadata
  createdAt := serverNow

/-- `existing.content = chunk.content` and the metadata. -/
def write (row : ChunkRow) (chunk : KnowledgeChunk) : ChunkRow :=
  { row with
    content := chunk.content
    metadataJson := some chunk.metadata }

@[simp] theorem key_ofChunk (chunk : KnowledgeChunk) (serverNow : Time) : (ofChunk chunk serverNow).key = chunk.key := rfl

def toChunk (row : ChunkRow) : KnowledgeChunk where
  tenantId := row.tenantId
  sourceId := row.sourceId
  chunkId := row.chunkId
  content := row.content
  metadata := row.metadataJson.getD .empty

end ChunkRow

/-! ## Ranking -/

variable (lower : String → String)

/-- How many tokens of the query the content has. -/
def score (normalizedQuery : String) (chunk : KnowledgeChunk) : Nat :=
  ((split normalizedQuery).filter (· ≠ "")).countP fun token => token.toList <:+: (lower chunk.content).toList

/-- `_rank` -/
def rank (chunks : List KnowledgeChunk) (normalizedQuery : String) (limit : Int) : List KnowledgeChunk :=
  if normalizedQuery = "" then sliceTo limit chunks
  else
    let scored := chunks.filterMap fun chunk =>
      if 0 < score lower normalizedQuery chunk then some (score lower normalizedQuery chunk, chunk) else none
    (sliceTo limit (scored.mergeSort fun item item' => item'.1 ≤ item.1)).map (·.2)

/-- `query.lower().strip()` -/
def normalized (query : String) : String := strip (lower query)

/-! ## The two modes -/

/-- `_mem` -/
abbrev KnowledgeMemory := List KnowledgeChunk

namespace KnowledgeMemory

def addChunks (mem : KnowledgeMemory) (chunks : List KnowledgeChunk) : KnowledgeMemory := mem ++ chunks

def search (mem : KnowledgeMemory) (tenantId query : String) (limit : Int) : List KnowledgeChunk :=
  rank lower (mem.filter fun chunk => chunk.tenantId = tenantId) (normalized lower query) limit

end KnowledgeMemory

/-- The rows by their unique key, in the order of their ids. -/
structure KnowledgeTable where
  rows : Dict ChunkKey ChunkRow
  keyed : ∀ key row, rows.get? key = some row → row.key = key

namespace KnowledgeTable

def empty : KnowledgeTable := ⟨.empty, fun _ _ h => nomatch h⟩

/-- Writes a row under its key. -/
def put (table : KnowledgeTable) (row : ChunkRow) : KnowledgeTable where
  rows := table.rows.set row.key row
  keyed key row' h := by
    rw [Dict.get?_set] at h
    split at h
    · next hkey => rw [← Option.some.inj h, hkey]
    · exact table.keyed key row' h

/-- A session: the rows as it changed them, and the chunks it added. -/
structure Session where
  rows : KnowledgeTable
  added : List KnowledgeChunk := []

/-- One round of the loop over the chunks. The lookup sees the committed rows
only, and what it finds is the session's object for the row. -/
def Session.write (committed : KnowledgeTable) (session : Session) (chunk : KnowledgeChunk) : Session :=
  match committed.rows.get? chunk.key with
  | none => { session with added := session.added ++ [chunk] }
  | some _ =>
    match session.rows.rows.get? chunk.key with
    | none => session
    | some existing => { session with rows := session.rows.put (existing.write chunk) }

variable (serverNow : ChunkKey → Time)

def insert (table : KnowledgeTable) (chunk : KnowledgeChunk) : Except Exc KnowledgeTable :=
  if (table.rows.get? chunk.key).isSome then .error ⟨.integrityError, "UNIQUE constraint failed"⟩
  else .ok (table.put (.ofChunk chunk (serverNow chunk.key)))

/-- `session.commit()` -/
def Session.commit (session : Session) : Except Exc KnowledgeTable :=
  session.added.foldlM (insert serverNow) session.rows

/-- `add_chunks`; a commit that raises leaves the table as it was. -/
def addChunks (table : KnowledgeTable) (chunks : List KnowledgeChunk) : Except Exc KnowledgeTable :=
  if chunks = [] then .ok table
  else (chunks.foldl (Session.write table) { rows := table }).commit serverNow

/-- The rows of the tenant in an order that the query may return them in. -/
structure Ordered (table : KnowledgeTable) (tenantId : String) (rows : List ChunkRow) : Prop where
  perm : rows.Perm (table.rows.values.filter fun row => row.tenantId = tenantId)
  createdAt : rows.Pairwise fun row row' => row'.createdAt ≤ row.createdAt

/-- `search`, for the rows of the tenant as the query returns them. -/
def search (rows : List ChunkRow) (query : String) (limit : Int) : List KnowledgeChunk :=
  rank lower ((rows.take 300).map (·.toChunk)) (normalized lower query) limit

/-! ## What a call leaves -/

variable (table : KnowledgeTable)

theorem get?_put (row : ChunkRow) (key : ChunkKey) :
    (table.put row).rows.get? key = if key = row.key then some row else table.rows.get? key :=
  Dict.get?_set ..

/-- The last of the chunks with a key. -/
def lastUnder (chunks : List KnowledgeChunk) (key : ChunkKey) : Option KnowledgeChunk :=
  lastWhere (fun chunk => chunk.key = key) chunks

theorem lastUnder_concat (chunks : List KnowledgeChunk) (chunk : KnowledgeChunk) (key : ChunkKey) :
    lastUnder (chunks ++ [chunk]) key = if chunk.key = key then some chunk else lastUnder chunks key := by
  rw [lastUnder, lastWhere_concat]
  by_cases h : chunk.key = key
  · simp [h]
  · simp [h, lastUnder]

/-- The chunk has no row. -/
def isNew (chunk : KnowledgeChunk) : Bool := (table.rows.get? chunk.key).isNone

/-- The row under a key, with the content of a chunk. -/
def rowAfter (key : ChunkKey) (chunk : KnowledgeChunk) : ChunkRow :=
  match table.rows.get? key with
  | none => .ofChunk chunk (serverNow key)
  | some existing => existing.write chunk

/-- The session has the new chunks, and the last content of each row. -/
theorem foldl_write (chunks : List KnowledgeChunk) :
    (chunks.foldl (Session.write table) { rows := table }).added = chunks.filter table.isNew ∧
      ∀ key, (chunks.foldl (Session.write table) { rows := table }).rows.rows.get? key =
        (table.rows.get? key).map fun row => (lastUnder chunks key).elim row row.write := by
  induction chunks using List.reverseRecOn with
  | nil => exact ⟨rfl, fun key => by cases h : table.rows.get? key <;> simp [h, lastUnder, lastWhere]⟩
  | append_singleton chunks chunk ih =>
    obtain ⟨hadded, hrows⟩ := ih
    rw [List.foldl_append, List.foldl_cons, List.foldl_nil, List.filter_append, List.filter_cons, List.filter_nil]
    simp only [Session.write, lastUnder_concat]
    cases hexisting : table.rows.get? chunk.key with
    | none =>
      refine ⟨by simp [hadded, isNew, hexisting], fun key => ?_⟩
      rw [hrows]
      by_cases hkey : chunk.key = key
      · rw [← hkey, hexisting]
        rfl
      · rw [if_neg hkey]
    | some row =>
      have hwrite : (((lastUnder chunks chunk.key).elim row row.write).write chunk) = row.write chunk := by
        cases lastUnder chunks chunk.key <;> rfl
      have hkey : (row.write chunk).key = chunk.key := table.keyed chunk.key row hexisting
      simp only [hrows, hexisting, Option.map_some, hwrite, get?_put, hkey]
      refine ⟨by simp [hadded, isNew, hexisting], fun key => ?_⟩
      by_cases hsame : key = chunk.key
      · rw [if_pos hsame, if_pos hsame.symm, hsame, hexisting]
        rfl
      · rw [if_neg hsame, if_neg (Ne.symm hsame)]

/-- New chunks are inserted if their keys differ. -/
theorem foldlM_insert {chunks : List KnowledgeChunk} (hnew : ∀ chunk ∈ chunks, table.rows.get? chunk.key = none)
    (hkeys : (chunks.map (·.key)).Nodup) :
    ∃ table', chunks.foldlM (insert serverNow) table = .ok table' ∧
      ∀ key, table'.rows.get? key =
        (lastUnder chunks key).elim (table.rows.get? key) fun chunk => some (.ofChunk chunk (serverNow key)) := by
  induction chunks using List.reverseRecOn with
  | nil => exact ⟨table, rfl, fun key => rfl⟩
  | append_singleton chunks chunk ih =>
    rw [List.map_append, List.nodup_append] at hkeys
    obtain ⟨table', hfold, hrows⟩ := ih (fun chunk' hmem => hnew chunk' (List.mem_append_left _ hmem)) hkeys.1
    have habsent : lastUnder chunks chunk.key = none := by
      refine lastWhere_eq_none.2 fun chunk' hmem => decide_eq_false fun hkey => ?_
      exact hkeys.2.2 _ (List.mem_map_of_mem hmem) _ (List.mem_singleton_self _) hkey
    have hinsert : insert serverNow table' chunk = .ok (table'.put (.ofChunk chunk (serverNow chunk.key))) := by
      rw [insert, hrows, habsent, Option.elim_none, hnew chunk (by simp)]
      rfl
    refine ⟨_, by rw [List.foldlM_append, hfold]; exact (bind_pure _).trans hinsert, fun key => ?_⟩
    rw [get?_put, ChunkRow.key_ofChunk, lastUnder_concat, hrows]
    by_cases hkey : key = chunk.key
    · rw [if_pos hkey, if_pos hkey.symm, hkey]
      rfl
    · rw [if_neg hkey, if_neg (Ne.symm hkey)]

/-- A key that comes again is rejected. -/
theorem of_foldlM_insert {chunks : List KnowledgeChunk} {table' : KnowledgeTable}
    (h : chunks.foldlM (insert serverNow) table = .ok table') :
    (chunks.map (·.key)).Nodup ∧ ∀ chunk ∈ chunks, (table'.rows.get? chunk.key).isSome := by
  induction chunks using List.reverseRecOn generalizing table' with
  | nil => exact ⟨List.nodup_nil, fun chunk hmem => absurd hmem List.not_mem_nil⟩
  | append_singleton chunks chunk ih =>
    rw [List.foldlM_append] at h
    cases hfold : chunks.foldlM (insert serverNow) table with
    | error exc => rw [hfold] at h; cases h
    | ok before =>
      obtain ⟨hkeys, hpresent⟩ := ih hfold
      rw [hfold] at h
      replace h : insert serverNow before chunk = .ok table' := (bind_pure _).symm.trans h
      unfold insert at h
      split at h
      · cases h
      · next habsent =>
        rw [← Except.ok.inj h]
        refine ⟨?_, fun chunk' hmem => ?_⟩
        · rw [List.map_append, List.nodup_append]
          refine ⟨hkeys, List.nodup_singleton _, fun key hkey key' hkey' hsame => habsent ?_⟩
          obtain ⟨chunk', hmem, rfl⟩ := List.mem_map.1 hkey
          rw [List.map_singleton, List.mem_singleton] at hkey'
          rw [← hkey', ← hsame]
          exact hpresent chunk' hmem
        · rw [get?_put, ChunkRow.key_ofChunk]
          rw [List.mem_append, List.mem_singleton] at hmem
          split
          · rfl
          · next hne => exact hpresent chunk' (hmem.resolve_right fun h => hne (congrArg _ h))

/-- Adding chunks succeeds exactly if those without a row have different keys,
and leaves the last chunk under each key. -/
theorem addChunks_spec (chunks : List KnowledgeChunk) :
    if ((chunks.filter table.isNew).map (·.key)).Nodup then
      ∃ table', table.addChunks serverNow chunks = .ok table' ∧
        ∀ key, table'.rows.get? key =
          (lastUnder chunks key).elim (table.rows.get? key) fun chunk => some (table.rowAfter serverNow key chunk)
    else ∃ exc, table.addChunks serverNow chunks = .error exc := by
  have hcommit : table.addChunks serverNow chunks =
      (chunks.filter table.isNew).foldlM (insert serverNow)
        (chunks.foldl (Session.write table) { rows := table }).rows := by
    unfold addChunks Session.commit
    rw [(table.foldl_write chunks).1]
    split
    · next hnil => rw [hnil]; rfl
    · rfl
  have hrows := (table.foldl_write chunks).2
  rw [hcommit]
  split
  · next hkeys =>
    have hnew : ∀ chunk ∈ chunks.filter table.isNew,
        (chunks.foldl (Session.write table) { rows := table }).rows.rows.get? chunk.key = none := by
      intro chunk hmem
      have hnone := (List.mem_filter.1 hmem).2
      rw [isNew, Option.isNone_iff_eq_none] at hnone
      rw [hrows, hnone, Option.map_none]
    obtain ⟨table', hok, hget⟩ := foldlM_insert serverNow _ hnew hkeys
    refine ⟨table', hok, fun key => ?_⟩
    rw [hget, hrows]
    cases hexisting : table.rows.get? key with
    | none =>
      have hfilter : lastUnder (chunks.filter table.isNew) key = lastUnder chunks key := by
        refine lastWhere_filter (fun chunk hkey => ?_) chunks
        rw [isNew, of_decide_eq_true hkey, hexisting]
        rfl
      rw [hfilter]
      simp only [rowAfter, hexisting, Option.map_none]
    | some row =>
      have hfilter : lastUnder (chunks.filter table.isNew) key = none := by
        refine lastWhere_eq_none.2 fun chunk hmem => decide_eq_false fun hkey => ?_
        have hnone := (List.mem_filter.1 hmem).2
        rw [isNew, hkey, hexisting] at hnone
        cases hnone
      rw [hfilter]
      simp only [rowAfter, hexisting, Option.map_some, Option.elim_none]
      cases lastUnder chunks key <;> rfl
  · next hkeys =>
    cases hfold : (chunks.filter table.isNew).foldlM (insert serverNow)
        (chunks.foldl (Session.write table) { rows := table }).rows with
    | error exc => exact ⟨exc, rfl⟩
    | ok table' => exact absurd (of_foldlM_insert serverNow _ hfold).1 hkeys

/-! ## The chunks of the table -/

variable {table}

def chunks (table : KnowledgeTable) : List KnowledgeChunk := table.rows.values.map (·.toChunk)

/-- The chunk of the row with the key. -/
def chunkUnder (table : KnowledgeTable) (key : ChunkKey) : Option KnowledgeChunk := (table.rows.get? key).map (·.toChunk)

theorem mem_chunks {chunk : KnowledgeChunk} : chunk ∈ table.chunks ↔ table.chunkUnder chunk.key = some chunk := by
  simp only [chunks, chunkUnder, List.mem_map, Dict.mem_values, Option.map_eq_some_iff]
  constructor
  · rintro ⟨row, ⟨key, hrow⟩, rfl⟩
    have hkey : row.toChunk.key = key := table.keyed key row hrow
    exact ⟨row, hkey ▸ hrow, rfl⟩
  · rintro ⟨row, hrow, hchunk⟩
    exact ⟨row, ⟨_, hrow⟩, hchunk⟩

theorem nodup_chunks (table : KnowledgeTable) : (table.chunks.map (·.key)).Nodup := by
  have hkeys : table.chunks.map (·.key) = table.rows.keys := by
    simp only [chunks, Dict.values, Dict.keys, List.map_map]
    exact List.map_congr_left fun e he => table.keyed e.1 e.2 (table.rows.mem_entries_iff.1 he)
  rw [hkeys]
  exact table.rows.nodup

theorem toChunk_rowAfter (table : KnowledgeTable) (chunk : KnowledgeChunk) :
    (table.rowAfter serverNow chunk.key chunk).toChunk = chunk.withoutEmbedding := by
  unfold rowAfter
  cases hrow : table.rows.get? chunk.key with
  | none => rfl
  | some row =>
    have hkey : row.key = chunk.key := table.keyed chunk.key row hrow
    simp only [ChunkRow.key, KnowledgeChunk.key, ChunkKey.mk.injEq] at hkey
    simp [ChunkRow.toChunk, ChunkRow.write, KnowledgeChunk.withoutEmbedding, hkey]

/-- A successful call leaves the last of the new chunks under each key, without
its embedding. -/
theorem chunkUnder_addChunks {serverNow : ChunkKey → Time} {chunks : List KnowledgeChunk} {table' : KnowledgeTable}
    (h : table.addChunks serverNow chunks = .ok table') (key : ChunkKey) :
    table'.chunkUnder key = ((lastUnder chunks key).map (·.withoutEmbedding)).or (table.chunkUnder key) := by
  have hspec := table.addChunks_spec serverNow chunks
  split at hspec
  · obtain ⟨table'', hok, hrows⟩ := hspec
    rw [h] at hok
    rw [Except.ok.inj hok, chunkUnder, hrows]
    cases hlast : lastUnder chunks key with
    | none => rfl
    | some chunk =>
      have hkey : chunk.key = key := of_decide_eq_true (lastWhere_some hlast).1
      subst hkey
      exact congrArg some (toChunk_rowAfter serverNow table chunk)
  · obtain ⟨exc, herror⟩ := hspec
    rw [h] at herror
    cases herror

end KnowledgeTable

end Ochestrate
