import Ochestrate.Api.Turns

/-!
# Where citations come from

Over any sequence of requests to the container, whose knowledge store is on its own
or over an in-memory repository, a run cites pieces of texts that its caller's tenant
ingested before, and nothing else: at most five, with scores that do not increase.
Each has a token of the input, unless the input is blank: then any piece is cited. If
a run cites fewer than five, it leaves out no piece that it could cite
(`citations_ingested`).
-/

namespace Ochestrate

open ToolHub

variable {υ : Type} {P : Platform} {hub : ToolHub (World P.shortTurns υ)} {draws : Draws}

/-- The chunks that a request adds. -/
def PlatformCall.chunks (P : Platform) (call : PlatformCall) : List KnowledgeChunk :=
  match call.request with
  | .ingestText auth payload => requestChunks P.md5 P.pipeline payload auth
  | _ => []

/-- A piece of a text that a tenant has ingested. -/
structure IngestedPiece (P : Platform) (calls : List PlatformCall) (tenantId : String) where
  author : AuthContext
  payload : IngestTextRequest
  draws : Draws
  idx : Nat
  content : String
  ingested : ⟨.ingestText author payload, draws⟩ ∈ calls
  owned : author.tenantId = tenantId
  isPiece : (P.pipeline.rawChunks payload.text 600)[idx]? = some content

namespace IngestedPiece

variable {calls : List PlatformCall} {tenantId : String}

/-- The chunk of a piece. -/
def chunk (piece : IngestedPiece P calls tenantId) : KnowledgeChunk where
  tenantId
  sourceId := piece.payload.sourceId
  chunkId := IngestionPipeline.chunkId P.md5 piece.payload.sourceId piece.idx
  content := piece.content
  metadata := Dict.empty.set "index" (.int piece.idx)

theorem getElem?_requestChunks (auth : AuthContext) (payload : IngestTextRequest) (idx : Nat) :
    (requestChunks P.md5 P.pipeline payload auth)[idx]? = (P.pipeline.rawChunks payload.text 600)[idx]?.map
      fun content => {
        tenantId := auth.tenantId
        sourceId := payload.sourceId
        chunkId := IngestionPipeline.chunkId P.md5 payload.sourceId idx
        content
        metadata := Dict.empty.set "index" (.int idx) } :=
  List.getElem?_mapIdx

/-- The tenant's chunks are those of its pieces. -/
theorem mem_chunks_iff {chunk : KnowledgeChunk} :
    chunk ∈ ((calls.map (·.chunks P)).flatten.filter fun chunk => chunk.tenantId = tenantId) ↔
      ∃ piece : IngestedPiece P calls tenantId, piece.chunk = chunk := by
  simp only [List.mem_filter, List.mem_flatten, List.mem_map, decide_eq_true_eq]
  constructor
  · rintro ⟨⟨_, ⟨⟨request, draws⟩, hcall, rfl⟩, hchunk⟩, htenant⟩
    cases request with
    | run => cases hchunk
    | createSkill => cases hchunk
    | ingestText author payload =>
      obtain ⟨idx, hidx⟩ := List.mem_iff_getElem?.1 hchunk
      rw [PlatformCall.chunks, getElem?_requestChunks, Option.map_eq_some_iff] at hidx
      obtain ⟨content, hcontent, rfl⟩ := hidx
      subst htenant
      exact ⟨⟨author, payload, draws, idx, content, hcall, rfl, hcontent⟩, rfl⟩
  · rintro ⟨piece, rfl⟩
    refine ⟨⟨_, ⟨_, piece.ingested, rfl⟩, List.mem_iff_getElem?.2 ⟨piece.idx, ?_⟩⟩, rfl⟩
    rw [PlatformCall.chunks, getElem?_requestChunks, piece.isPiece, Option.map_some, piece.owned]
    rfl

end IngestedPiece

/-! ## The store -/

theorem KnowledgeStore.addChunks_nil (store : KnowledgeStore) : store.addChunks [] = store := by
  unfold addChunks
  split
  · next repository hrepository =>
    rw [show repository.addChunks [] = repository from List.append_nil _, ← hrepository]
  · rw [List.append_nil]

/-- A request adds its chunks. -/
theorem knowledge_respond (hw : Wired hub) (call : PlatformCall) :
    ((platformApi P).respond hub call).2.world.services.knowledge =
      hub.world.services.knowledge.addChunks (call.chunks P) := by
  obtain ⟨⟨auth, request⟩ | ⟨auth, payload⟩ | ⟨auth, payload⟩, draws⟩ := call
  · obtain ⟨r, houtcome, hrespond⟩ := run_served hw draws auth request
    rw [hrespond, PlatformCall.chunks, KnowledgeStore.addChunks_nil]
    obtain ⟨disk, -, hservices | ⟨answer, hservices⟩⟩ := houtcome.services
    · have hknowledge := congrArg Services.knowledge hservices
      exact hknowledge
    · have hknowledge := congrArg Services.knowledge hservices
      exact hknowledge
  · rw [ingest_served]
    rfl
  · rw [skill_served, PlatformCall.chunks, KnowledgeStore.addChunks_nil]
    rfl

theorem knowledge_after (hw : Wired hub) (calls : List PlatformCall) :
    ((platformApi P).after hub calls).world.services.knowledge =
      hub.world.services.knowledge.after (calls.map (·.chunks P)) := by
  induction calls generalizing hub with
  | nil => rfl
  | cons call calls ih =>
    have hrest := ih (hw.respond call)
    rw [knowledge_respond hw call] at hrest
    exact hrest

/-! ## Citations -/

/-- A citation of a piece. -/
structure Cites {calls : List PlatformCall} {tenantId : String} (piece : IngestedPiece P calls tenantId)
    (citation : Citation) : Prop where
  sourceId : citation.sourceId = piece.payload.sourceId
  chunkId : citation.chunkId = IngestionPipeline.chunkId P.md5 piece.payload.sourceId piece.idx
  snippet : citation.snippet = firstChars piece.content 200
  score : HybridRetriever.tenth ≤ citation.score ∧ citation.score ≤ 1

theorem cites_citation {calls : List PlatformCall} {tenantId : String} (piece : IngestedPiece P calls tenantId) (i : Nat) :
    Cites piece (HybridRetriever.citation i piece.chunk) :=
  ⟨rfl, rfl, rfl, HybridRetriever.score_mem i⟩

/-- The scores of citations are counted down. -/
theorem pairwise_score (chunks : List KnowledgeChunk) :
    (chunks.mapIdx HybridRetriever.citation).Pairwise fun citation citation' => citation'.score ≤ citation.score := by
  rw [List.pairwise_iff_getElem]
  intro i j hi hj hij
  rw [List.getElem_mapIdx, List.getElem_mapIdx]
  exact HybridRetriever.score_antitone hij.le

/-- An answered run cites the chunks of its tenant that rank first for its input. -/
theorem citations_run (hb : Built hub) (hstore : hub.world.services.knowledge.IsEmpty) (calls : List PlatformCall)
    (auth : AuthContext) (request : UnifiedRequest) {response : UnifiedResponse}
    (hanswered : ((platformApi P).respond ((platformApi P).after hub calls) ⟨.run auth request, draws⟩).1 =
      .ok (.response response)) :
    response.citations =
      (rank P.builtins.lower ((calls.map (·.chunks P)).flatten.filter fun chunk => chunk.tenantId = auth.tenantId)
        (normalized P.builtins.lower request.input) (5 : Nat)).mapIdx HybridRetriever.citation := by
  obtain ⟨r, houtcome, hrespond⟩ := run_served (hb.wired.after calls) draws auth request
  rw [hrespond] at hanswered
  cases houtcome with
  | stopped => cases hanswered
  | unrecorded => cases hanswered
  | returned _ _ _ responds =>
    cases hanswered
    refine responds.citations.trans (congrArg (List.mapIdx HybridRetriever.citation) ?_)
    have hknowledge : (arrived ((platformApi P).after hub calls) draws).world.services.knowledge = _ :=
      knowledge_after hb.wired calls
    rw [hknowledge]
    exact KnowledgeStore.search_eq_rank hstore _ _ _ _ 5

/-- A run that is answered after any requests cites at most five pieces of texts that
its tenant ingested with them, each with a token of the input or any if the input is
blank; if it cites fewer, all of these. -/
theorem citations_ingested (hb : Built hub) (hstore : hub.world.services.knowledge.IsEmpty) (calls : List PlatformCall)
    (auth : AuthContext) (request : UnifiedRequest) {response : UnifiedResponse}
    (hanswered : ((platformApi P).respond ((platformApi P).after hub calls) ⟨.run auth request, draws⟩).1 =
      .ok (.response response)) :
    response.citations.length ≤ 5 ∧
      (response.citations.Pairwise fun citation citation' => citation'.score ≤ citation.score) ∧
      (∀ citation ∈ response.citations, ∃ piece : IngestedPiece P calls auth.tenantId, Cites piece citation ∧
        IsSought P.builtins.lower request.input piece.content) ∧
      (response.citations.length < 5 →
        ∀ piece : IngestedPiece P calls auth.tenantId, IsSought P.builtins.lower request.input piece.content →
          ∃ citation ∈ response.citations, Cites piece citation) := by
  let found := rank P.builtins.lower ((calls.map (·.chunks P)).flatten.filter fun chunk => chunk.tenantId = auth.tenantId)
    (normalized P.builtins.lower request.input) (5 : Nat)
  have hcitations : response.citations = found.mapIdx HybridRetriever.citation :=
    citations_run hb hstore calls auth request hanswered
  have hlength : response.citations.length = found.length := by rw [hcitations, List.length_mapIdx]
  refine ⟨hlength ▸ length_rank_le .., hcitations ▸ pairwise_score found, fun citation hcitation => ?_,
    fun hfew piece hsought => ?_⟩
  · rw [hcitations, List.mem_mapIdx] at hcitation
    obtain ⟨i, hi, rfl⟩ := hcitation
    obtain ⟨hchunk, hsought⟩ := of_mem_rank (List.getElem_mem hi)
    obtain ⟨piece, hpiece⟩ := IngestedPiece.mem_chunks_iff.1 hchunk
    rw [← hpiece] at hsought ⊢
    exact ⟨piece, cites_citation piece i, hsought⟩
  · have hpiece := IngestedPiece.mem_chunks_iff.2 ⟨piece, rfl⟩
    have hfound : piece.chunk ∈ found := mem_rank_of_length_lt (hlength ▸ hfew) hpiece hsought
    obtain ⟨i, hi, hi'⟩ := List.mem_iff_getElem.1 hfound
    refine ⟨HybridRetriever.citation i piece.chunk, ?_, cites_citation piece i⟩
    rw [hcitations, List.mem_mapIdx]
    exact ⟨i, hi, by rw [hi']⟩

/-- A text with a token of the greeting is ingested by the caller's tenant, and then
cited; the one of another tenant is not. -/
theorem greeting_cited :
    let calls : List PlatformCall := [
      ⟨.ingestText someCaller { sourceId := "doc", text := "good evening", text_ne := by decide }, quietDraws "t1"⟩,
      ⟨.ingestText { someCaller with tenantId := "other" } { sourceId := "note", text := "good night", text_ne := by decide },
        quietDraws "t2"⟩]
    ∃ response : UnifiedResponse,
      ((platformApi emptyPlatform).respond ((platformApi emptyPlatform).after emptyHub calls)
        ⟨.run someCaller greeting, quietDraws "t3"⟩).1 = .ok (.response response) ∧
      (∀ citation ∈ response.citations, citation.sourceId = "doc") ∧
      ∃ citation ∈ response.citations, citation.snippet = "good evening" := by
  intro calls
  have hskills : skillsOf emptyPlatform ((platformApi emptyPlatform).after emptyHub calls).world.services = .ok [] :=
    emptyPlatform_skills
  obtain ⟨response, hresponse⟩ := question_served (emptyHub_built.wired.after calls) (quietDraws "t3") someCaller greeting
    hskills (by decide) rfl
  obtain ⟨-, -, hcites, hall⟩ := citations_ingested emptyHub_built (.inl rfl) calls someCaller greeting hresponse
  let piece : IngestedPiece emptyPlatform calls someCaller.tenantId :=
    ⟨someCaller, _, _, 0, "good evening", List.mem_cons_self .., rfl, by decide⟩
  have hpieces : ∀ piece' : IngestedPiece emptyPlatform calls someCaller.tenantId,
      piece'.payload.sourceId = "doc" ∧ piece'.content = "good evening" := by
    intro piece'
    have hpiece := piece'.isPiece
    obtain hingested | hingested := List.mem_cons.1 piece'.ingested
    · injection hingested with hrequest
      injection hrequest with _ hpayload
      have hchunks : emptyPlatform.pipeline.rawChunks "good evening" 600 = ["good evening"] := by decide
      rw [hpayload, hchunks] at hpiece
      exact ⟨by rw [hpayload], List.mem_singleton.1 (List.mem_of_getElem? hpiece)⟩
    · injection List.mem_singleton.1 hingested with hrequest
      injection hrequest with hauthor
      exact absurd piece'.owned (by rw [hauthor]; decide)
  have hcited : ∀ citation ∈ response.citations, citation.sourceId = "doc" ∧ citation.snippet = "good evening" := by
    intro citation hcitation
    obtain ⟨piece', hpiece', -⟩ := hcites citation hcitation
    rw [hpiece'.sourceId, hpiece'.snippet, (hpieces piece').1, (hpieces piece').2]
    decide
  have hsome : ∃ citation, citation ∈ response.citations := by
    by_cases hfew : response.citations.length < 5
    · obtain ⟨citation, hcitation, -⟩ := hall hfew piece (.inr ⟨"good", by decide, by decide⟩)
      exact ⟨citation, hcitation⟩
    · exact List.exists_mem_of_length_pos (by omega)
  obtain ⟨citation, hcitation⟩ := hsome
  exact ⟨response, hresponse, fun citation hcitation => (hcited citation hcitation).1, citation, hcitation,
    (hcited citation hcitation).2⟩

end Ochestrate
