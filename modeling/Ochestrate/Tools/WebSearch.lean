import Ochestrate.Tools.WebFetch

/-!
# The search tool

`WebSearchTool` of `app/tools/web_tools.py`. The search page is requested by
`requests.get`, which follows redirects itself: `send` is one exchange of it and
`redirectTarget` the URL that the library goes on with, up to thirty times. The
results are fetched by a fetch tool of the same configuration. `chain` are the
URLs that the search endpoint leads to; `run_requests_iff` says that all URLs a
run requests are safe exactly if these are.
-/

namespace Ochestrate

/-- The first `.result__a` of a result: its `href`, and its text without spaces
at the ends. -/
structure Anchor where
  href : Option String
  text : String
  deriving DecidableEq

/-- A `.result` of a page, with the text of its `.result__snippet`. -/
structure SearchResult where
  anchor : Option Anchor
  snippet : Option String
  deriving DecidableEq

/-- The libraries of the fetch tool, and what the search uses beside them. -/
structure SearchLibraries (ω : Type) extends WebLibraries ω where
  /-- one exchange of `requests.get(url, timeout=…)` -/
  send : String → Int → EStateM Exc ω Response
  /-- the URL that `requests.get` follows a response to, if it is a redirect -/
  redirectTarget : String → Response → Except Exc (Option String)
  quotePlus : String → String
  unquote : String → String
  /-- `soup.select(".result")` -/
  select : String → List SearchResult

structure WebSearchTool (ω : Type) where
  libraries : SearchLibraries ω
  security : ToolSecurityConfig

/-- The values that a search reads from its parameters. -/
structure SearchArguments where
  query : String
  maxResults : Int
  includeFetch : Bool

namespace WebSearchTool

variable {ω : Type} (B : Builtins) (tool : WebSearchTool ω)

/-- The fetch tool, of the same configuration. -/
def fetchTool : WebFetchTool ω := ⟨tool.libraries.toWebLibraries, tool.security⟩

/-- `int(value)` -/
def toInt : Json → Except Exc Int
  | .int z => .ok z
  | .bool b => .ok (if b then 1 else 0)
  | .float q => .ok (q.num.tdiv q.den)
  | .str s => tool.libraries.int s
  | value => .error ⟨.typeError,
      "int() argument must be a string, a bytes-like object or a real number, not '" ++ value.typeName ++ "'"⟩

def queryOf (params : Params) : String :=
  strip (B.str (orElse (params.get? (.str "query")) (orElse (params.get? (.str "q")) (.str ""))))

/-- What `run` does before it requests the page. -/
def arguments (params : Params) : Except Exc SearchArguments := do
  let query := queryOf B params
  if query = "" then throw ⟨.valueError, "query is required"⟩
  let maxResults ← tool.toInt ((params.get? (.str "max_results")).getD (.int tool.security.searchResultLimit))
  let includeFetch := ((params.get? (.str "include_fetch")).getD (.bool true)).truthy
  if B.lower tool.security.searchProvider ≠ "duckduckgo" then
    throw ⟨.valueError, "unsupported search provider '" ++ tool.security.searchProvider ++ "'"⟩
  return { query, maxResults, includeFetch }

/-! ## The search page -/

def searchUrl (query : String) : String := "https://duckduckgo.com/html/?q=" ++ tool.libraries.quotePlus query

/-- A URL is requested. -/
def exchange (url : String) : EStateM Exc (Web ω) Response := do
  modify fun web => { web with requests := web.requests ++ [url] }
  zoomed (·.world) (fun web world => { web with world }) (tool.libraries.send url tool.security.fetchTimeoutSeconds)

/-- `requests.get`, with the redirects that are left. -/
def followed : Nat → String → EStateM Exc (Web ω) Response
  | 0, url => do
    let resp ← tool.exchange url
    match ← MonadExcept.ofExcept (tool.libraries.redirectTarget url resp) with
    | none => return resp
    | some _ => throw ⟨.osError, "Exceeded 30 redirects."⟩
  | n + 1, url => do
    let resp ← tool.exchange url
    match ← MonadExcept.ofExcept (tool.libraries.redirectTarget url resp) with
    | none => return resp
    | some next => followed n next

/-- The text of the search page. -/
def page (query : String) : EStateM Exc (Web ω) String := do
  let resp ← tool.followed 30 (tool.searchUrl query)
  MonadExcept.ofExcept (tool.fetchTool.text resp)

/-! ## Results -/

/-- `_normalize_result_url`: the URL that a link of the provider leads to. -/
def normalizeResultUrl (url : String) : Except Exc String := do
  let parsed ← tool.libraries.urlparse url
  if containsText "duckduckgo.com" parsed.netloc ∧ "/l/".toList <+: parsed.path.toList then
    match (parsed.query.toList.splitOn '&').find? fun part => "uddg=".toList.isPrefixOf part with
    | some part => return tool.libraries.unquote (.ofList (part.drop "uddg=".toList.length))
    | none => return url
  else return url

/-- `{"title": title, "url": href, "snippet": snippet}` -/
def itemOf (anchor : Anchor) (snippet : Option String) (href : String) : Dict String Json :=
  Dict.empty.update [("title", .str anchor.text), ("url", .str href), ("snippet", .str (snippet.getD ""))]

/-- `{"url": href}` -/
def fetchParams (href : String) : Params := Dict.empty.set (.str "url") (.str href)

/-- The item with what is fetched from its URL, or the error. -/
def fetched (item : Dict String Json) (href : String) : EStateM Exc (Web ω) (Dict String Json) :=
  tryCatch
    (do
      let output ← tool.fetchTool.run B (fetchParams href)
      return item.set "fetched_excerpt" ((output.get? "text").getD (.str "")))
    fun exc => return item.set "fetch_error" (.str exc.message)

/-- The item of a result. -/
def entry (includeFetch : Bool) (anchor : Anchor) (snippet : Option String) : EStateM Exc (Web ω) (Dict String Json) := do
  let href ← MonadExcept.ofExcept (tool.normalizeResultUrl (anchor.href.getD ""))
  let item := itemOf anchor snippet href
  if !includeFetch || href = "" then return item
  if ¬ (← MonadExcept.ofExcept (tool.security.isUrlSafe B tool.libraries.toNetwork href)) then return item
  tool.fetched B item href

/-- The loop over the results that are left, with the items so far. -/
def collect (args : SearchArguments) : List SearchResult → List (Dict String Json) →
    EStateM Exc (Web ω) (List (Dict String Json))
  | [], items => return items
  | result :: results, items =>
    match result.anchor with
    | none => collect args results items
    | some anchor => do
      let item ← tool.entry B args.includeFetch anchor result.snippet
      if args.maxResults ≤ (items ++ [item]).length then return items ++ [item]
      else collect args results (items ++ [item])

/-- The dictionary that is returned. -/
def output (query : String) (items : List (Dict String Json)) : Dict String Json :=
  Dict.empty.update [("query", .str query), ("provider", .str tool.security.searchProvider),
    ("results", .arr (items.map fun item => .obj item.entries))]

def run (params : Params) : EStateM Exc (Web ω) (Dict String Json) := do
  let args ← MonadExcept.ofExcept (tool.arguments B params)
  let page ← tool.page args.query
  let items ← tool.collect B args (tool.libraries.select page) []
  return tool.output args.query items

/-! ## The URLs that are requested -/

/-- The configuration lets the URL pass. -/
def Safe (url : String) : Prop := tool.fetchTool.Safe B url

/-- The redirect that the other side answers a URL with, and the world after it. -/
def redirect (url : String) (world : ω) : Option (String × ω) :=
  match tool.libraries.send url tool.security.fetchTimeoutSeconds world with
  | .error _ _ => none
  | .ok resp world' =>
    match tool.libraries.redirectTarget url resp with
    | .ok (some next) => some (next, world')
    | _ => none

/-- A URL and those that its redirects lead to, at most `n`. -/
def chain : Nat → String → ω → List String
  | 0, url, _ => [url]
  | n + 1, url, world =>
    url :: match tool.redirect url world with
      | some (next, world') => chain n next world'
      | none => []

variable {tool}

/-- One exchange, as the world has it. -/
theorem exchange_eq (url : String) (web : Web ω) :
    tool.exchange url web =
      match tool.libraries.send url tool.security.fetchTimeoutSeconds web.world with
      | .ok resp world => .ok resp ⟨world, web.requests ++ [url]⟩
      | .error exc world => .error exc ⟨world, web.requests ++ [url]⟩ := by
  rw [exchange, modify_bind, zoomed]
  dsimp only
  cases tool.libraries.send url tool.security.fetchTimeoutSeconds web.world <;> rfl

section Exchange

variable {url : String} {web : Web ω} {world : ω}

theorem exchange_ok {resp : Response}
    (h : tool.libraries.send url tool.security.fetchTimeoutSeconds web.world = .ok resp world) :
    tool.exchange url web = .ok resp ⟨world, web.requests ++ [url]⟩ := by
  rw [exchange_eq, h]

theorem exchange_error {exc : Exc}
    (h : tool.libraries.send url tool.security.fetchTimeoutSeconds web.world = .error exc world) :
    tool.exchange url web = .error exc ⟨world, web.requests ++ [url]⟩ := by
  rw [exchange_eq, h]

end Exchange

/-- The library requests the URLs of the chain. -/
theorem requests_followed (n : Nat) (url : String) (web : Web ω) :
    (finalState (tool.followed n url web)).requests = web.requests ++ tool.chain n url web.world := by
  induction n generalizing url web with
  | zero =>
    cases hsend : tool.libraries.send url tool.security.fetchTimeoutSeconds web.world with
    | error exc world =>
      rw [followed, bind_error (exchange_error hsend)]
      rfl
    | ok resp world =>
      rw [followed, bind_ok (exchange_ok hsend)]
      rcases tool.libraries.redirectTarget url resp with exc | _ | next <;> rfl
  | succ n ih =>
    cases hsend : tool.libraries.send url tool.security.fetchTimeoutSeconds web.world with
    | error exc world =>
      rw [followed, bind_error (exchange_error hsend), chain, redirect, hsend]
      rfl
    | ok resp world =>
      rw [followed, bind_ok (exchange_ok hsend), chain, redirect, hsend]
      dsimp only
      rcases tool.libraries.redirectTarget url resp with exc | _ | next
      · rfl
      · rfl
      · show (finalState (tool.followed n next ⟨world, web.requests ++ [url]⟩)).requests = _
        rw [ih, List.append_assoc]
        rfl

/-- Between two states all requests are of safe URLs. -/
def SafeRequests (tool : WebSearchTool ω) (web web' : Web ω) : Prop :=
  ∃ n, WebFetchTool.Requests (tool.Safe B) n web web'

theorem SafeRequests.refl (web : Web ω) : SafeRequests B tool web web := ⟨0, .refl web⟩

theorem SafeRequests.trans ⦃web web' web'' : Web ω⦄ (h : SafeRequests B tool web web')
    (h' : SafeRequests B tool web' web'') : SafeRequests B tool web web'' := by
  obtain ⟨n, h⟩ := h
  obtain ⟨m, h'⟩ := h'
  exact ⟨n + m, h.trans h'⟩

/-- What is not requested is safe. -/
theorem ofExcept_safe {α : Type} (x : Except Exc α) :
    Along (SafeRequests B tool) (MonadExcept.ofExcept x : EStateM Exc (Web ω) α) (fun _ => True) :=
  (Along.ofExcept (.refl B) x).imp fun _ _ => trivial

theorem pure_safe {α : Type} (a : α) :
    Along (SafeRequests B tool) (pure a : EStateM Exc (Web ω) α) (fun _ => True) :=
  Along.pure (.refl B) trivial

/-- The fetch tool requests safe URLs. -/
theorem fetched_safe (item : Dict String Json) (href : String) :
    Along (SafeRequests B tool) (tool.fetched B item href) (fun _ => True) := by
  have hrun : Along (SafeRequests B tool) (tool.fetchTool.run B (fetchParams href)) (fun _ => True) := by
    refine Along.of_finalState fun web => ?_
    exact ⟨_, (tool.fetchTool.run_along B (fetchParams href)).finalState web⟩
  refine Along.tryCatch (.trans B) ?_ fun exc => pure_safe B _
  exact Along.bind (.trans B) hrun fun output _ => pure_safe B _

theorem entry_safe (includeFetch : Bool) (anchor : Anchor) (snippet : Option String) :
    Along (SafeRequests B tool) (tool.entry B includeFetch anchor snippet) (fun _ => True) := by
  refine Along.bind (.trans B) (ofExcept_safe B _) fun href _ => ?_
  dsimp only
  split
  · exact pure_safe B _
  · refine Along.bind (.trans B) (ofExcept_safe B _) fun safe _ => ?_
    split
    · exact pure_safe B _
    · exact fetched_safe B _ href

theorem collect_safe (args : SearchArguments) (results : List SearchResult) (items : List (Dict String Json)) :
    Along (SafeRequests B tool) (tool.collect B args results items) (fun _ => True) := by
  induction results generalizing items with
  | nil => exact pure_safe B items
  | cons result results ih =>
    unfold collect
    split
    · exact ih items
    · next anchor _ =>
      refine Along.bind (.trans B) (entry_safe B _ anchor _) fun item _ => ?_
      split
      · exact pure_safe B _
      · exact ih _

/-- A run requests the chain of the search endpoint, and safe URLs after it. -/
theorem requests_run {params : Params} {args : SearchArguments} (h : tool.arguments B params = .ok args) (web : Web ω) :
    ∃ urls, (finalState (tool.run B params web)).requests =
        web.requests ++ (tool.chain 30 (tool.searchUrl args.query) web.world ++ urls) ∧
      ∀ url ∈ urls, tool.Safe B url := by
  have hrest : ∀ resp, Along (SafeRequests B tool)
      (do
        let page ← MonadExcept.ofExcept (tool.fetchTool.text resp)
        let items ← tool.collect B args (tool.libraries.select page) []
        return tool.output args.query items : EStateM Exc (Web ω) (Dict String Json)) (fun _ => True) := fun resp => by
    refine Along.bind (.trans B) (ofExcept_safe B _) fun page _ => ?_
    exact Along.bind (.trans B) (collect_safe B args _ []) fun items _ => pure_safe B _
  have hrun : tool.run B params web = (tool.followed 30 (tool.searchUrl args.query) >>= fun resp => do
      let page ← MonadExcept.ofExcept (tool.fetchTool.text resp)
      let items ← tool.collect B args (tool.libraries.select page) []
      return tool.output args.query items) web := by
    rw [run, h, ofExcept_ok_bind, page, bind_assoc]
  obtain ⟨n, urls, hurls, hsafe, -⟩ := Along.after (x := tool.followed 30 (tool.searchUrl args.query)) (.refl B) hrest web
  refine ⟨urls, ?_, hsafe⟩
  rw [hrun, hurls, requests_followed, List.append_assoc]

/-- For every configuration, parameters and servers: all URLs that a run requests
are safe exactly if it raises before the search, or all URLs of the search
endpoint's chain are. -/
theorem run_requests_iff (tool : WebSearchTool ω) (params : Params) (web : Web ω) :
    (∃ urls, (finalState (tool.run B params web)).requests = web.requests ++ urls ∧ ∀ url ∈ urls, tool.Safe B url) ↔
      ∀ args, tool.arguments B params = .ok args →
        ∀ url ∈ tool.chain 30 (tool.searchUrl args.query) web.world, tool.Safe B url := by
  cases hargs : tool.arguments B params with
  | error exc =>
    have hrun : tool.run B params web = .error exc web := by
      rw [run, hargs]
      rfl
    rw [hrun]
    exact ⟨fun _ args h => (by cases h), fun _ => ⟨[], (List.append_nil _).symm, by simp⟩⟩
  | ok args =>
    obtain ⟨urls, hurls, hsafe⟩ := requests_run B hargs web
    rw [hurls]
    constructor
    · intro ⟨urls', hurls', hsafe'⟩ args' hargs' url hurl
      obtain rfl := Except.ok.inj hargs'
      refine hsafe' url ?_
      rw [← List.append_cancel_left hurls']
      exact List.mem_append_left _ hurl
    · intro hchain
      refine ⟨_, rfl, fun url hurl => ?_⟩
      exact (List.mem_append.1 hurl).elim (hchain args rfl url) (hsafe url)

/-! ## A search that is led away -/

/-- An address of a private network. -/
def metadataUrl : String := "http://169.254.169.254/latest/meta-data"

/-- A search endpoint that redirects to it. -/
def leadingAway : SearchLibraries Unit := {
  WebFetchTool.movedPages with
  urlparse := fun url => .ok (
    if url = metadataUrl then
      { scheme := "http", netloc := "169.254.169.254", hostname := some "169.254.169.254", path := "/latest/meta-data"
        query := "" }
    else
      { scheme := "https", netloc := "duckduckgo.com", hostname := some "duckduckgo.com", path := "/html/"
        query := "q=policy" })
  send := fun url _ => return {
    url, statusCode := if url = metadataUrl then 200 else 302, encoding := some "utf-8", content := .ok []
    header := fun _ => none }
  redirectTarget := fun _ resp => .ok (if resp.statusCode = 302 then some metadataUrl else none)
  quotePlus := id
  unquote := id
  select := fun _ => [] }

/-- A tool that may reach the search endpoint, and no private network. -/
def searchTool (libraries : SearchLibraries Unit) : WebSearchTool Unit where
  libraries
  security := { allowedDirectories := [], allowedDomains := ["example.com", "duckduckgo.com"] }

def policyParams : Params := Dict.empty.set (.str "query") (.str "policy")

/-- The private address is requested. -/
theorem exists_unsafe_request :
    ¬ ∀ (B : Builtins) (tool : WebSearchTool Unit) (params : Params) (web : Web Unit),
      ∃ urls, (finalState (tool.run B params web)).requests = web.requests ++ urls ∧
        ∀ url ∈ urls, tool.Safe B url := by
  intro h
  obtain ⟨urls, hurls, hsafe⟩ := h asciiBuiltins (searchTool leadingAway) policyParams ⟨(), []⟩
  have hargs : (searchTool leadingAway).arguments asciiBuiltins policyParams = .ok ⟨"policy", 5, true⟩ := rfl
  obtain ⟨rest, hrun, -⟩ := requests_run asciiBuiltins hargs ⟨(), []⟩
  have hchain : (searchTool leadingAway).chain 30 ((searchTool leadingAway).searchUrl "policy") () =
      ["https://duckduckgo.com/html/?q=policy", metadataUrl] := by decide
  rw [hrun, hchain] at hurls
  have hmetadata := hsafe metadataUrl (by rw [← List.append_cancel_left hurls]; simp)
  have hblocked : (searchTool leadingAway).security.isUrlSafe asciiBuiltins
      (searchTool leadingAway).libraries.toNetwork metadataUrl = .ok false := rfl
  exact Bool.noConfusion (Except.ok.inj (hblocked.symm.trans hmetadata))

end WebSearchTool

end Ochestrate
