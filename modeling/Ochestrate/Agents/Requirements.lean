import Ochestrate.Agents.Confirmation
import Ochestrate.Framework.Words
import Ochestrate.Tools.FileTool
import Ochestrate.Tools.WebSearch

/-!
# Whether a planned step has what its tool requires

Four tools raise where a parameter is missing: a path, a URL, a query or a
statement. `rejection` is that check on the dictionary that the hub hands over,
and `run_rejected` says that the tool then raises and does nothing else.
`plan_accepted_iff` says for which payloads no planned step is rejected: the
planner gives the payload's parameters to the search tool too, and these have no
query.
-/

namespace Ochestrate

open ExecutorAgent PlannerAgent

/-! ## The dictionary as the file tool reads it -/

namespace Json

variable {κ : Type}

mutual
/-- The value of a JSON value. -/
def toValue : Json → Value κ
  | null => .none
  | bool b => .bool b
  | int z => .int z
  | float q => .float q
  | str s => .str (Text.of s)
  | arr xs => .list (toValues xs)
  | obj fields => .dict (toFields fields)
def toValues : List Json → List (Value κ)
  | [] => []
  | x :: xs => toValue x :: toValues xs
def toFields : List (String × Json) → List (Text × Value κ)
  | [] => []
  | (key, x) :: fields => (Text.of key, toValue x) :: toFields fields
end

end Json

theorem Text.of_injective : Function.Injective Text.of := by
  intro s s' h
  exact String.toList_inj.1 (List.map_injective_iff.2 (fun _ _ => CodePoint.scalar.inj) h)

/-- The name that a key is; the file tool asks for no other key. -/
def Key.text? : Key → Option Text
  | .str name => some (Text.of name)
  | _ => none

theorem Key.text?_injective {key key' : Key} {text : Text} (h : key.text? = some text) (h' : key'.text? = some text) :
    key = key' := by
  cases key with
  | str name =>
    cases key' with
    | str name' =>
      obtain rfl := Option.some.inj h
      rw [Text.of_injective (Option.some.inj h')]
    | num => cases h'
    | null => cases h'
  | num => cases h
  | null => cases h

/-- The entry of a name. -/
def textEntry {κ : Type} (entry : Key × Json) : Option (Text × Value κ) :=
  entry.1.text?.map fun name => (name, entry.2.toValue)

/-- The parameters for the file tool. -/
def Params.toValues {κ : Type} (params : Params) : FileTool.Values κ where
  entries := params.entries.filterMap textEntry
  nodup := by
    have hkeys : (params.entries.filterMap (textEntry (κ := κ))).map Prod.fst = params.keys.filterMap Key.text? := by
      rw [List.map_filterMap, Dict.keys, List.filterMap_map]
      refine List.filterMap_congr fun entry _ => ?_
      rw [textEntry, Option.map_map]
      exact Option.map_id'
    rw [hkeys]
    exact params.nodup.filterMap fun _ _ _ => Key.text?_injective

/-- A parameter is read under its name. -/
theorem get?_toValues {κ : Type} (params : Params) (name : String) :
    params.toValues.get? (Text.of name) = (params.get? (.str name)).map (Json.toValue (κ := κ)) := by
  rw [Dict.get?, Dict.get?, Params.toValues]
  dsimp only
  induction params.entries with
  | nil => rfl
  | cons entry entries ih =>
    obtain ⟨key, value⟩ := entry
    rw [List.filterMap_cons, Dict.lookup_cons_ite]
    cases key with
    | str name' =>
      simp only [textEntry, Key.text?, Option.map_some]
      rw [Dict.lookup_cons_ite, ih]
      by_cases hname : name = name'
      · subst hname
        simp
      · have hne : Text.of name ≠ Text.of name' := fun h => hname (Text.of_injective h)
        simp [hname, hne]
    | num q => simpa [textEntry, Key.text?] using ih
    | null => simpa [textEntry, Key.text?] using ih

/-! ## The checks -/

/-- The tools that require a parameter. -/
structure RequiringTools (κ ω : Type) where
  file : FileTool κ
  fetch : WebFetchTool ω
  search : WebSearchTool ω
  database : DatabaseTool ω

section Checks

variable {κ ω : Type} (B : Builtins) (T : RequiringTools κ ω)

/-- What the tool of a call raises because a parameter is missing. -/
def rejection (call : ToolCall) : Option Exc :=
  match call.toolName with
  | "file_tool" =>
    if T.file.pathValue call.injected.toValues = [] then some ⟨.valueError, "resource_path is required for file tool"⟩
    else none
  | "web_fetch_tool" => if WebFetchTool.urlOf B call.injected = "" then some ⟨.valueError, "url is required"⟩ else none
  | "web_search_tool" =>
    if WebSearchTool.queryOf B call.injected = "" then some ⟨.valueError, "query is required"⟩ else none
  | "database_tool" => if DatabaseTool.sqlOf B call.injected = "" then some ⟨.valueError, "sql is required"⟩ else none
  | _ => none

/-- The tool of a call raises in every state, and leaves it. -/
def Raises (call : ToolCall) (exc : Exc) : Prop :=
  match call.toolName with
  | "file_tool" => ∀ fs, T.file.run call.injected.toValues fs = .error exc fs
  | "web_fetch_tool" => ∀ web, T.fetch.run B call.injected web = .error exc web
  | "web_search_tool" => ∀ web, T.search.run B call.injected web = .error exc web
  | "database_tool" => ∀ db, T.database.run B call.injected db = .error exc db
  | _ => False

/-- A tool raises what its check rejects a call with. -/
theorem run_rejected {call : ToolCall} {exc : Exc} (h : rejection B T call = some exc) : Raises B T call exc := by
  unfold rejection at h
  unfold Raises
  split at h
  · obtain ⟨hblank, ⟨⟩⟩ := Option.ite_none_right_eq_some.1 h
    intro fs
    unfold FileTool.run
    simp only [hblank, ↓reduceIte]
    rfl
  · obtain ⟨hblank, ⟨⟩⟩ := Option.ite_none_right_eq_some.1 h
    intro web
    unfold WebFetchTool.run
    simp only [hblank, ↓reduceIte]
    rfl
  · obtain ⟨hblank, ⟨⟩⟩ := Option.ite_none_right_eq_some.1 h
    intro web
    unfold WebSearchTool.run WebSearchTool.arguments
    simp only [hblank, ↓reduceIte]
    rfl
  · obtain ⟨hblank, ⟨⟩⟩ := Option.ite_none_right_eq_some.1 h
    intro db
    unfold DatabaseTool.run DatabaseTool.policies
    simp only [hblank, ↓reduceIte]
    rfl
  · cases h

end Checks

/-! ## What the planner passes on -/

/-- The payload asks for a search of the web. -/
def Searches (B : Builtins) (payload : ToolPayload) : Prop :=
  B.lower payload.resourceType ∈ ["web", "url"] ∧ B.lower payload.operation = "search"

/-- The texts of the payload that tools require are there and not blank. -/
structure Filled (payload : ToolPayload) : Prop where
  resourcePath : ∃ text, payload.resourcePath = some text ∧ isBlank text = false
  url : ∃ text, payload.url = some text ∧ isBlank text = false
  sql : ∃ text, payload.sql = some text ∧ isBlank text = false

/-- The tool of a payload: the search tool exactly for a payload that asks for a
search. -/
theorem payloadTool_cases (B : Builtins) (payload : ToolPayload) :
    (Searches B payload ∧ payloadTool B payload = some "web_search_tool") ∨
      ¬ Searches B payload ∧ (payloadTool B payload = none ∨
        ∃ toolName ∈ ["file_tool", "web_fetch_tool", "database_tool"], payloadTool B payload = some toolName) := by
  unfold payloadTool Searches
  by_cases hweb : B.lower payload.resourceType ∈ ["web", "url"]
  · have hfile : B.lower payload.resourceType ∉
        ["file", "json", "doc", "docx", "excel", "xlsx", "pdf", "txt", "csv"] := by
      have hdisjoint : ∀ resourceType ∈ ["web", "url"],
          resourceType ∉ ["file", "json", "doc", "docx", "excel", "xlsx", "pdf", "txt", "csv"] := by decide
      exact hdisjoint _ hweb
    rw [if_neg hfile, if_pos hweb]
    by_cases hsearch : B.lower payload.operation = "search"
    · exact .inl ⟨⟨hweb, hsearch⟩, by rw [if_pos hsearch]⟩
    · exact .inr ⟨fun hsearches => hsearch hsearches.2, .inr ⟨"web_fetch_tool", by simp, by rw [if_neg hsearch]⟩⟩
  · refine .inr ⟨fun hsearches => hweb hsearches.1, ?_⟩
    rw [if_neg hweb]
    split
    · exact .inr ⟨"file_tool", by simp, rfl⟩
    · split
      · exact .inr ⟨"database_tool", by simp, rfl⟩
      · exact .inl rfl

/-! ## The dictionaries that are handed over -/

section Handed

variable {κ ω : Type} (B : Builtins) (T : RequiringTools κ ω) (c : ExecuteContext)

/-- The call of a step without an override. -/
def plainCall (toolName : String) (planned : Params) : ToolCall := toolCall B c toolName (merge B c toolName planned [])

/-- Without overrides a step's call is plain. -/
theorem updatePairs_overrideOf (h : c.toolOverrides.getD .empty = .empty) (toolName : String) :
    (overrideOf c toolName).updatePairs = .ok [] := by
  rw [overrideOf, h]
  rfl

variable {c} in
/-- The calls of the steps without overrides are plain, and there is one for each
tool step. -/
theorem callsOf_plain (h : c.toolOverrides.getD .empty = .empty) (steps : List Step) :
    callsOf B c steps = (steps.filterMap fun
      | .tool toolName planned => some (plainCall B c toolName planned)
      | _ => none, none) := by
  induction steps with
  | nil => rfl
  | cons step steps ih =>
    cases step with
    | validatePermissions => exact ih
    | respond => exact ih
    | tool toolName planned =>
      rw [callsOf, updatePairs_overrideOf c h]
      dsimp only
      rw [ih]
      rfl

variable {B c} {toolName name : String} {planned : Params}

/-- A planned parameter is handed over. -/
theorem injected_of_planned {value : Json} (h : planned.get? (.str name) = some value) :
    (plainCall B c toolName planned).injected.get? (.str name) = some value := by
  have hmerge : (merge B c toolName planned []).get? (.str name) = some value := by
    unfold merge
    dsimp only
    split
    · exact Dict.get?_setDefault_of_some _ h _ _
    · exact h
  rw [plainCall, injected_get?, hmerge]
  rfl

/-- A search has no parameter beside the planned ones and the hub's context. -/
theorem injected_search (hname : callerContext c name = none) :
    (plainCall B c "web_search_tool" planned).injected.get? (.str name) = planned.get? (.str name) := by
  have hmerge : merge B c "web_search_tool" planned [] = planned := rfl
  rw [plainCall, injected_get?, hmerge, hname, Option.or_none]

/-- A text that is not blank is what a tool takes for the parameter. -/
theorem strip_orElse {text : String} (h : isBlank text = false) (other : Json) :
    strip (B.str (orElse (some (.str text)) other)) ≠ "" := by
  have hne : text ≠ "" := by
    rintro rfl
    cases h
  have htruthy : (Json.str text).truthy = true := by simpa [Json.truthy] using hne
  rw [orElse, if_pos htruthy, B.str_str, Ne, strip_eq_empty_iff, h]
  simp

/-- A path that is not blank is what the file tool takes. -/
theorem pathValue_ne (file : FileTool κ) {values : FileTool.Values κ} {text : String} (h : isBlank text = false)
    (hpath : values.get? (Text.of "resource_path") = some (.str (Text.of text))) : file.pathValue values ≠ [] := by
  have hne : Text.of text ≠ [] := by
    rintro hnil
    rw [Text.of, List.map_eq_nil_iff, String.toList_eq_nil_iff] at hnil
    subst hnil
    cases h
  have hget : FileTool.get values "resource_path" = .str (Text.of text) := by rw [FileTool.get, hpath, Option.getD_some]
  have htruthy : file.truthy (.str (Text.of text)) = true := by simpa [FileTool.truthy] using hne
  rw [FileTool.pathValue, hget, if_pos htruthy, file.libraries.str_str, FileTool.stripText, Ne,
    trim_eq_nil_iff]
  intro hall
  have hblank : isBlank text = true := by
    rw [isBlank, List.all_eq_true]
    intro ch hch
    exact hall (.scalar ch) (List.mem_map_of_mem hch)
  rw [h] at hblank
  cases hblank

end Handed

/-! ## Plans -/

section Plan

variable {κ ω : Type} (B : Builtins) (T : RequiringTools κ ω) (c : ExecuteContext)

/-- The parameters of a payload have what each tool but the search requires. -/
theorem accepted_payload {payload : ToolPayload} (h : Filled payload) {toolName : String}
    (htool : toolName ∈ ["file_tool", "web_fetch_tool", "database_tool"]) :
    rejection B T (plainCall B c toolName (payloadParams B payload)) = none := by
  simp only [List.mem_cons, List.not_mem_nil, or_false] at htool
  obtain rfl | rfl | rfl := htool
  · obtain ⟨text, htext, hblank⟩ := h.resourcePath
    have hplanned : (payloadParams B payload).get? (.str "resource_path") = some (.str text) :=
      congrArg (fun value => some (Json.ofOption .str value)) htext
    have hpath : (plainCall B c "file_tool" (payloadParams B payload)).injected.toValues.get?
        (Text.of "resource_path") = some (.str (Text.of text) : Value κ) := by
      rw [get?_toValues, injected_of_planned hplanned]
      rfl
    exact if_neg (pathValue_ne T.file hblank hpath)
  · obtain ⟨text, htext, hblank⟩ := h.url
    have hplanned : (payloadParams B payload).get? (.str "url") = some (.str text) :=
      congrArg (fun value => some (Json.ofOption .str value)) htext
    refine if_neg ?_
    rw [WebFetchTool.urlOf, injected_of_planned hplanned]
    exact strip_orElse hblank _
  · obtain ⟨text, htext, hblank⟩ := h.sql
    have hplanned : (payloadParams B payload).get? (.str "sql") = some (.str text) :=
      congrArg (fun value => some (Json.ofOption .str value)) htext
    refine if_neg ?_
    rw [DatabaseTool.sqlOf, injected_of_planned hplanned]
    exact strip_orElse hblank _

/-- The parameters of a payload have no query. -/
theorem rejected_search (payload : ToolPayload) :
    rejection B T (plainCall B c "web_search_tool" (payloadParams B payload)) =
      some ⟨.valueError, "query is required"⟩ := by
  refine if_pos ?_
  have hquery : (payloadParams B payload).get? (.str "query") = none := rfl
  have hq : (payloadParams B payload).get? (.str "q") = none := rfl
  rw [WebSearchTool.queryOf, injected_search rfl, injected_search rfl, hquery, hq]
  show strip (B.str (.str "")) = ""
  rw [B.str_str]
  decide

/-- A blank text has no word that is looked for. -/
theorem not_blank_of_containsText {pattern text : String} (hpattern : isBlank pattern = false)
    (h : containsText pattern text = true) : isBlank text = false := by
  rw [Bool.eq_false_iff]
  intro hblank
  have hpart : pattern.toList <:+: text.toList := by simpa [containsText] using h
  have hall : isBlank pattern = true := List.all_eq_true.2 fun ch hch => List.all_eq_true.1 hblank ch (hpart.subset hch)
  rw [hpattern] at hall
  cases hall

/-- The steps that the words of a request ask for have what their tools require. -/
theorem accepted_input (hlower : ∀ text, isBlank text = true → B.lower text = text) {input toolName : String}
    {planned : Params} (h : .tool toolName planned ∈ stepsFromInput B input) :
    rejection B T (plainCall B c toolName planned) = none := by
  simp only [stepsFromInput, List.mem_append] at h
  obtain (h | h) | h := h
  · split at h
    · obtain ⟨⟩ := List.mem_singleton.1 h
      rfl
    · cases h
  · split at h
    · obtain ⟨⟩ := List.mem_singleton.1 h
      rfl
    · cases h
  · split at h
    · next hword =>
      obtain ⟨⟩ := List.mem_singleton.1 h
      have hraw : isBlank (B.lower input) = false :=
        hword.elim (not_blank_of_containsText (by decide)) (not_blank_of_containsText (by decide))
      have hblank : isBlank input = false := by
        rw [Bool.eq_false_iff]
        intro hblank
        rw [hlower input hblank, hblank] at hraw
        cases hraw
      refine if_neg ?_
      rw [WebSearchTool.queryOf, injected_of_planned (show _ = some (Json.str input) from rfl)]
      exact strip_orElse hblank _
    · cases h

variable {c} in
/-- The one call of a payload's step. -/
theorem calls_payload (hplain : c.toolOverrides.getD .empty = .empty) {request : UnifiedRequest} {toolName : String}
    {planned : Params} (h : stepFromPayload B request.toolPayload = some (.tool toolName planned)) :
    (callsOf B c (plan B request)).1 = [plainCall B c toolName planned] := by
  rw [plan, h, callsOf_plain B hplain]
  rfl

variable {c} in
/-- Without a step of the payload the calls are those that the words ask for. -/
theorem calls_input (hplain : c.toolOverrides.getD .empty = .empty) {request : UnifiedRequest}
    (h : stepFromPayload B request.toolPayload = none) {call : ToolCall}
    (hcall : call ∈ (callsOf B c (plan B request)).1) :
    ∃ toolName planned, .tool toolName planned ∈ stepsFromInput B request.input ∧
      call = plainCall B c toolName planned := by
  rw [callsOf_plain B hplain] at hcall
  obtain ⟨step, hstep, hcall⟩ := List.mem_filterMap.1 hcall
  cases step with
  | validatePermissions => cases hcall
  | respond => cases hcall
  | tool toolName planned =>
    refine ⟨toolName, planned, ?_, (Option.some.inj hcall).symm⟩
    rw [plan, h] at hstep
    dsimp only at hstep
    split at hstep
    · simp at hstep
    · split at hstep
      · simp at hstep
      · simpa using hstep

variable {B T c} in
/-- Without overrides, and with payloads whose texts are not blank, the executor
makes the calls of the plan, and no tool rejects one of them for a missing
parameter exactly if the payload asks for no search. -/
theorem plan_accepted_iff {σ : Type} {request : UnifiedRequest} (hpolicy : c.policy = request.policy)
    (hauto : request.policy.autoExecute = true) (hoverrides : c.toolOverrides = some request.toolOverrides)
    (hnone : request.toolOverrides = .empty) (hlower : ∀ text, isBlank text = true → B.lower text = text)
    (hfilled : ∀ payload, request.toolPayload = some payload → Filled payload) :
    let calls := (callsOf B c (plan B request)).1
    (∀ hub : ToolHub σ, execute B (plan B request) c hub = .ok (answers B calls hub) (afterCalls B calls hub)) ∧
      ((∀ call ∈ calls, rejection B T call = none) ↔
        ∀ payload, request.toolPayload = some payload → ¬ Searches B payload) := by
  have hplain : c.toolOverrides.getD .empty = .empty := by rw [hoverrides, Option.getD_some, hnone]
  have hinput : stepFromPayload B request.toolPayload = none →
      ∀ call ∈ (callsOf B c (plan B request)).1, rejection B T call = none := by
    intro hstep call hcall
    obtain ⟨toolName, planned, hmem, rfl⟩ := calls_input B hplain hstep hcall
    exact accepted_input B T c hlower hmem
  have hone : ∀ {toolName : String} {planned : Params},
      stepFromPayload B request.toolPayload = some (.tool toolName planned) →
      ((∀ call ∈ (callsOf B c (plan B request)).1, rejection B T call = none) ↔
        rejection B T (plainCall B c toolName planned) = none) := by
    intro toolName planned hstep
    rw [calls_payload B hplain hstep, List.forall_mem_singleton]
  refine ⟨fun hub => ?_, ?_⟩
  · rw [execute_eq B c _ hub (by rw [hpolicy, hauto]), callsOf_plain B hplain]
  · cases hpayload : request.toolPayload with
    | none =>
      rw [hpayload] at hinput
      exact iff_of_true (hinput rfl) fun payload h => nomatch h
    | some payload =>
      rw [hpayload] at hinput hone
      have hfill := hfilled payload hpayload
      have hall : (∀ other, some payload = some other → ¬ Searches B other) ↔ ¬ Searches B payload := by simp
      rw [hall]
      have hstep := stepFromPayload_eq B payload
      obtain ⟨hsearch, htool⟩ | ⟨hno, htool | ⟨toolName, hmem, htool⟩⟩ := payloadTool_cases B payload
      · rw [htool] at hstep
        refine iff_of_false (fun haccepted => ?_) fun hno => hno hsearch
        have hnone := (hone hstep).1 haccepted
        rw [rejected_search B T c payload] at hnone
        cases hnone
      · rw [htool] at hstep
        exact iff_of_true (hinput hstep) hno
      · rw [htool] at hstep
        exact iff_of_true ((hone hstep).2 (accepted_payload B T c hfill hmem)) hno

end Plan

/-! ## A payload of the web -/

theorem toLower_of_isSpace {ch : Char} (h : isSpace ch = true) : ch.toLower = ch := by
  have hnot : ¬ (ch.val ≥ 'A'.val ∧ ch.val ≤ 'Z'.val) := by
    rintro ⟨hlow, hhigh⟩
    have hlow : 65 ≤ ch.toNat := UInt32.le_iff_toNat_le.1 hlow
    have hhigh : ch.toNat ≤ 90 := UInt32.le_iff_toNat_le.1 hhigh
    simp only [isSpace, Bool.or_eq_true, Bool.and_eq_true, decide_eq_true_eq] at h
    omega
  exact dif_neg hnot

theorem asciiBuiltins_lower_blank (text : String) (h : isBlank text = true) : asciiBuiltins.lower text = text := by
  have hchars : ∀ ch ∈ text.toList, ch.toLower = ch :=
    fun ch hch => toLower_of_isSpace (List.all_eq_true.1 h ch hch)
  show String.ofList (text.toList.map Char.toLower) = text
  rw [List.map_congr_left hchars, List.map_id', String.ofList_toList]

def exampleTools : RequiringTools Empty Unit where
  file := dataTool plainLibraries
  fetch := WebFetchTool.fetchTool
  search := WebSearchTool.searchTool WebSearchTool.leadingAway
  database := DatabaseTool.openDatabase

/-- A payload of the web with all texts. -/
def webPayload (operation : String) : ToolPayload where
  operation
  resourceType := "web"
  resourcePath := some "data/notes.txt"
  url := some "https://example.com/page"
  sql := some "SELECT 1"
  content := .str "notes"

def webRequest (operation : String) : UnifiedRequest where
  sessionId := "s1"
  input := "what does the page say"
  input_ne := by decide
  toolPayload := some (webPayload operation)

def webContext (request : UnifiedRequest) : ExecuteContext where
  userRole := .str "employee"
  traceId := "trace-1"
  tenantId := "acme"
  userId := "u1"
  policy := request.policy
  toolOverrides := some request.toolOverrides

theorem webPayload_filled (operation : String) : Filled (webPayload operation) where
  resourcePath := ⟨_, rfl, by decide⟩
  url := ⟨_, rfl, by decide⟩
  sql := ⟨_, rfl, by decide⟩

/-- The calls that the executor makes for the payload. -/
def webCalls (operation : String) : List ToolCall :=
  (callsOf asciiBuiltins (webContext (webRequest operation)) (plan asciiBuiltins (webRequest operation))).1

theorem fetch_accepted :
    (webCalls "fetch").map (·.toolName) = ["web_fetch_tool"] ∧
      ∀ call ∈ webCalls "fetch", rejection asciiBuiltins exampleTools call = none := by
  have hfilled : ∀ payload, (webRequest "fetch").toolPayload = some payload → Filled payload := by
    rintro payload ⟨⟩
    exact webPayload_filled "fetch"
  refine ⟨by decide, ?_⟩
  refine (plan_accepted_iff (σ := Unit) rfl rfl rfl rfl asciiBuiltins_lower_blank hfilled).2.2 ?_
  rintro payload ⟨⟩
  unfold Searches
  decide

/-- A search is planned from a payload, and the search tool raises. -/
theorem search_rejected :
    (webRequest "search").policy.autoExecute = true ∧ (webRequest "search").toolOverrides = .empty ∧
      (webRequest "search").toolPayload = some (webPayload "search") ∧ Filled (webPayload "search") ∧
      isBlank "notes" = false ∧
      ∃ call ∈ webCalls "search", call.toolName = "web_search_tool" ∧
        rejection asciiBuiltins exampleTools call = some ⟨.valueError, "query is required"⟩ ∧
        Raises asciiBuiltins exampleTools call ⟨.valueError, "query is required"⟩ := by
  have hrejected := rejected_search asciiBuiltins exampleTools (webContext (webRequest "search")) (webPayload "search")
  have hcalls : webCalls "search" = [plainCall asciiBuiltins (webContext (webRequest "search")) "web_search_tool"
      (payloadParams asciiBuiltins (webPayload "search"))] :=
    calls_payload asciiBuiltins rfl (by decide)
  refine ⟨rfl, rfl, rfl, webPayload_filled "search", by decide, _, ?_, rfl, hrejected,
    run_rejected asciiBuiltins exampleTools hrejected⟩
  rw [hcalls]
  exact List.mem_singleton_self _

end Ochestrate
