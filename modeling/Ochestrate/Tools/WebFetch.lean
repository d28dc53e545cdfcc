import Ochestrate.Framework.Along
import Ochestrate.Framework.Strings
import Ochestrate.Tools.Security

/-!
# The fetch tool

`WebFetchTool` of `app/tools/web_tools.py`. Redirects are followed by hand, and
each URL is checked before it is requested. `requests` is a history variable:
the URLs that were requested, whatever the other side did. `Requests P n` is
what a program may do to it that makes at most `n` requests, all of URLs that
satisfy `P`; `run_requests` says so of a run, whatever it is answered.
-/

namespace Ochestrate

/-- A response before its body is read. -/
structure Response where
  url : String
  statusCode : Int
  /-- `headers.get(name)`, by the name in lower case. -/
  header : String → Option String
  encoding : Option String
  content : Except Exc (List UInt8)

/-- `requests` and `bs4`. -/
structure WebLibraries (ω : Type) extends Network where
  /-- `session.get(url, timeout=…, allow_redirects=False, stream=True)` -/
  get : String → Int → EStateM Exc ω Response
  /-- `response.text`, of an encoding and content -/
  decode : Option String → List UInt8 → Except Exc String
  /-- `text.encode(encoding)` -/
  encode : String → String → Except Exc (List UInt8)
  /-- `int(text)` -/
  int : String → Except Exc Int
  /-- `(soup.title.string or "").strip() if soup.title else ""` -/
  title : String → String
  /-- `soup.get_text(separator="\n", strip=True)` -/
  getText : String → String

/-- The world outside the tool, with the URLs requested so far. -/
structure Web (ω : Type) where
  world : ω
  requests : List String := []

structure WebFetchTool (ω : Type) where
  libraries : WebLibraries ω
  security : ToolSecurityConfig

namespace WebFetchTool

variable {ω : Type} (B : Builtins) (tool : WebFetchTool ω)

/-- The configuration lets the URL pass. -/
def Safe (url : String) : Prop := tool.security.isUrlSafe B tool.libraries.toNetwork url = .ok true

/-- `resp.text` -/
def text (resp : Response) : Except Exc String := do tool.libraries.decode resp.encoding (← resp.content)

/-- `resp.is_redirect` -/
def isRedirect (resp : Response) : Bool :=
  (resp.header "location").isSome && resp.statusCode ∈ [301, 302, 303, 307, 308]

/-- A URL is requested. -/
def request (url : String) : EStateM Exc (Web ω) Response := do
  modify fun web => { web with requests := web.requests ++ [url] }
  zoomed (·.world) (fun web world => { web with world }) (tool.libraries.get url tool.security.fetchTimeoutSeconds)

/-- `_validate_content_headers` -/
def validateContentHeaders (resp : Response) : Except Exc Unit := do
  let contentType := B.lower ((resp.header "content-type").getD "")
  if ¬ ["text", "json", "xml", "html", "markdown"].any fun x => containsText x contentType then
    throw ⟨.valueError, "unsupported content type '" ++ contentType ++ "'"⟩
  match resp.header "content-length" with
  | none | some "" => return ⟨⟩
  | some contentLength =>
    if (← tool.libraries.int contentLength) > tool.security.maxFetchChars * 4 then
      throw ⟨.valueError, "response body is too large"⟩

/-- The response that is no redirect, with a long body cut off. -/
def accept (resp : Response) : Except Exc Response := do
  tool.validateContentHeaders B resp
  let text ← tool.text resp
  if (text.length : Int) > tool.security.maxFetchChars then
    let content ← tool.libraries.encode ((resp.encoding.filter (· ≠ "")).getD "utf-8")
      (.ofList (sliceTo tool.security.maxFetchChars text.toList))
    return { resp with content := .ok content }
  else return resp

/-- The rounds that are left of the loop of `_safe_get`. -/
def hops : Nat → String → EStateM Exc (Web ω) Response
  | 0, _ => throw ⟨.valueError, "too many redirects"⟩
  | n + 1, current => do
    let resp ← tool.request current
    match (resp.header "location").filter (· ≠ "") with
    | some location =>
      if isRedirect resp then
        let next ← MonadExcept.ofExcept (tool.libraries.urljoin current location)
        if ¬ (← MonadExcept.ofExcept (tool.security.isUrlSafe B tool.libraries.toNetwork next)) then
          throw ⟨.permissionError, "redirect target is not allowed: '" ++ next ++ "'"⟩
        hops n next
      else MonadExcept.ofExcept (tool.accept B resp)
    | none => MonadExcept.ofExcept (tool.accept B resp)

/-- `_safe_get` -/
def safeGet (url : String) : EStateM Exc (Web ω) Response := tool.hops B (tool.security.maxRedirects + 1).toNat url

/-- The title and the body of a response. -/
def readable (contentType body : String) : Except Exc (String × String) :=
  if containsText "html" contentType then .ok (tool.libraries.title body, tool.libraries.getText body)
  else if containsText "json" contentType then .ok ("", body)
  else if containsText "text" contentType then .ok ("", body)
  else .error ⟨.valueError, "unsupported content type '" ++ contentType ++ "'"⟩

/-- The result of a response. -/
def resultOf (resp : Response) : Except Exc (Dict String Json) := do
  let contentType := B.lower ((resp.header "content-type").getD "")
  let (title, body) ← tool.readable contentType (← tool.text resp)
  let trimmed := sliceTo tool.security.maxFetchChars body.toList
  return Dict.empty.update [("url", .str resp.url), ("status_code", .int resp.statusCode),
    ("content_type", .str contentType), ("title", .str title), ("text", .str (.ofList trimmed))]

def urlOf (params : Params) : String := strip (B.str (orElse (params.get? (.str "url")) (.str "")))

def run (params : Params) : EStateM Exc (Web ω) (Dict String Json) := do
  let url := urlOf B params
  if url = "" then throw ⟨.valueError, "url is required"⟩
  if ¬ (← MonadExcept.ofExcept (tool.security.isUrlSafe B tool.libraries.toNetwork url)) then
    throw ⟨.permissionError, "domain is not allowed for url '" ++ url ++ "'"⟩
  let resp ← tool.safeGet B url
  MonadExcept.ofExcept (tool.resultOf B resp)

/-! ## The URLs that are requested -/

/-- Between two states: at most `n` requests, all of URLs that satisfy `P`. -/
def Requests (P : String → Prop) (n : Nat) (web web' : Web ω) : Prop :=
  ∃ urls, web'.requests = web.requests ++ urls ∧ (∀ url ∈ urls, P url) ∧ urls.length ≤ n

section Requests

variable {P : String → Prop} {n m : Nat} {web web' web'' : Web ω}

theorem Requests.refl (web : Web ω) : Requests P n web web := ⟨[], (List.append_nil _).symm, by simp, Nat.zero_le n⟩

theorem Requests.mono (h : Requests P n web web') (hn : n ≤ m) : Requests P m web web' := by
  obtain ⟨urls, hurls, hp, hlength⟩ := h
  exact ⟨urls, hurls, hp, hlength.trans hn⟩

theorem Requests.trans (h : Requests P n web web') (h' : Requests P m web' web'') : Requests P (n + m) web web'' := by
  obtain ⟨urls, hurls, hp, hlength⟩ := h
  obtain ⟨urls', hurls', hp', hlength'⟩ := h'
  refine ⟨urls ++ urls', by rw [hurls', hurls, List.append_assoc], fun url hmem => ?_, ?_⟩
  · exact (List.mem_append.1 hmem).elim (hp url) (hp' url)
  · rw [List.length_append]
    omega

/-- What makes no request, and then a program that makes some. -/
theorem Requests.after_silent {α β : Type} {Q : α → Prop} {Q' : β → Prop} {x : EStateM Exc (Web ω) α}
    (h : Along (Requests P 0) x Q) {f : α → EStateM Exc (Web ω) β}
    (hf : ∀ a, Q a → Along (Requests P n) (f a) Q') : Along (Requests P n) (x >>= f) Q' := by
  refine Along.seq (fun a b c hab hbc => ?_) (fun _ _ hab => hab.mono (Nat.zero_le n)) h hf
  have habc := hab.trans hbc
  rw [Nat.zero_add] at habc
  exact habc

theorem ofExcept_silent {α : Type} (x : Except Exc α) :
    Along (Requests P 0) (MonadExcept.ofExcept x : EStateM Exc (Web ω) α) (fun a => x = .ok a) :=
  Along.ofExcept .refl x

theorem request_requests {url : String} (hp : P url) : Along (Requests P 1) (tool.request url) (fun _ => True) := by
  have htrans : ∀ ⦃a b c : Web ω⦄, Requests P 1 a b → Requests P 0 b c → Requests P 1 a c := fun _ _ _ => .trans
  refine Along.seq (Q := fun _ => True) htrans (fun _ _ h => h) (Along.modify fun web => ?_) fun _ _ => ?_
  · exact ⟨[url], rfl, by simpa using hp, Nat.le_refl 1⟩
  · exact Along.zoomed (fun web _ => ⟨[], (List.append_nil _).symm, by simp, Nat.le_refl 0⟩) _

end Requests

variable {tool}

/-- The loop requests the current URL, and another one once it is checked. -/
theorem hops_requests (n : Nat) {current : String} (hsafe : tool.Safe B current) :
    Along (Requests (tool.Safe B) n) (tool.hops B n current) (fun _ => True) := by
  induction n generalizing current with
  | zero => exact Along.throw .refl _
  | succ n ih =>
    have haccept : ∀ resp, Along (Requests (tool.Safe B) n)
        (MonadExcept.ofExcept (tool.accept B resp) : EStateM Exc (Web ω) Response) (fun _ => True) := fun resp =>
      (Along.ofExcept .refl (tool.accept B resp)).imp fun _ _ => trivial
    have htrans : ∀ ⦃a b c : Web ω⦄, Requests (tool.Safe B) 1 a b → Requests (tool.Safe B) n b c →
        Requests (tool.Safe B) (n + 1) a c := fun a b c hab hbc => by
      rw [Nat.add_comm]
      exact hab.trans hbc
    have hone : ∀ ⦃a b : Web ω⦄, Requests (tool.Safe B) 1 a b → Requests (tool.Safe B) (n + 1) a b :=
      fun a b hab => hab.mono (Nat.le_add_left 1 n)
    refine Along.seq htrans hone (tool.request_requests hsafe) fun resp _ => ?_
    split
    · next location _ =>
      split
      · refine Requests.after_silent (ofExcept_silent _) fun next _ => ?_
        refine Requests.after_silent (ofExcept_silent _) fun safe hnext => ?_
        cases safe with
        | false => exact Along.throw .refl _
        | true => exact ih hnext
      · exact haccept resp
    · exact haccept resp

/-- The text of a result has at most as many characters as the configuration
allows. -/
theorem resultOf_text {resp : Response} {output : Dict String Json} (hchars : 0 ≤ tool.security.maxFetchChars)
    (h : tool.resultOf B resp = .ok output) :
    ∃ text, output.get? "text" = some (.str text) ∧ (text.length : Int) ≤ tool.security.maxFetchChars := by
  unfold resultOf at h
  cases htext : tool.text resp with
  | error exc =>
    rw [htext] at h
    cases h
  | ok body =>
    rw [htext] at h
    cases hreadable : tool.readable (B.lower ((resp.header "content-type").getD "")) body with
    | error exc =>
      simp only [bind, Except.bind, hreadable] at h
      cases h
    | ok readable =>
      simp only [bind, Except.bind, hreadable] at h
      obtain rfl := Except.ok.inj h
      refine ⟨.ofList (sliceTo tool.security.maxFetchChars readable.2.toList), ?_, ?_⟩
      · simp only [Dict.update, List.foldl_cons, List.foldl_nil]
        rw [Dict.get?_set_self]
      · have hlength : (sliceTo tool.security.maxFetchChars readable.2.toList).length ≤
            tool.security.maxFetchChars.toNat := by
          rw [sliceTo_of_nonneg hchars]
          exact List.length_take_le _ _
        rw [String.length_ofList]
        omega

variable (tool) in
/-- A run requests safe URLs, one more than the redirects allowed. -/
theorem run_along (params : Params) :
    Along (Requests (tool.Safe B) (tool.security.maxRedirects + 1).toNat) (tool.run B params)
      (fun output => ∃ resp, tool.resultOf B resp = .ok output) := by
  unfold run
  dsimp only
  split
  · exact Along.throw .refl _
  · refine Requests.after_silent (ofExcept_silent _) fun safe hurl => ?_
    cases safe with
    | false => exact Along.throw .refl _
    | true =>
      have htrans : ∀ ⦃a b c : Web ω⦄, Requests (tool.Safe B) (tool.security.maxRedirects + 1).toNat a b →
          Requests (tool.Safe B) 0 b c → Requests (tool.Safe B) (tool.security.maxRedirects + 1).toNat a c :=
        fun _ _ _ => .trans
      refine Along.seq htrans (fun _ _ hab => hab) (hops_requests B _ hurl) fun resp _ => ?_
      exact (ofExcept_silent (tool.resultOf B resp)).imp fun output hresult => ⟨resp, hresult⟩

/-- For every configuration that allows some redirects and characters, every
dictionary of parameters and whatever the servers answer: all URLs that a run
requests are safe, they are at most one more than the redirects allowed, and a
run that returns has a text that is not too long. -/
theorem run_requests (tool : WebFetchTool ω) (params : Params) (web : Web ω)
    (hredirects : 0 ≤ tool.security.maxRedirects) (hchars : 0 ≤ tool.security.maxFetchChars) :
    (∃ urls, (finalState (tool.run B params web)).requests = web.requests ++ urls ∧
        (∀ url ∈ urls, tool.Safe B url) ∧ (urls.length : Int) ≤ tool.security.maxRedirects + 1) ∧
      ∀ output web', tool.run B params web = .ok output web' →
        ∃ text, output.get? "text" = some (.str text) ∧ (text.length : Int) ≤ tool.security.maxFetchChars := by
  have hrun := tool.run_along B params
  constructor
  · obtain ⟨urls, hurls, hsafe, hlength⟩ := hrun.finalState web
    exact ⟨urls, hurls, hsafe, by omega⟩
  · intro output web' hok
    have hweb := hrun web
    rw [hok] at hweb
    obtain ⟨-, resp, hresult⟩ := hweb
    exact resultOf_text B hchars hresult

/-! ## A page that has moved -/

/-- A server that redirects every page to another one. -/
def movedPages : WebLibraries Unit where
  urlparse url := .ok {
    scheme := "https", netloc := "example.com", hostname := some "example.com", query := ""
    path := if url = "https://example.com/page" then "/page" else "/next" }
  urljoin _ location := .ok ("https://example.com" ++ location)
  ipAddress host := if host = "93.184.216.34" then some ⟨false, false, false, false, false⟩ else none
  getaddrinfo _ := .addresses ["93.184.216.34"]
  get url _ :=
    if url = "https://example.com/page" then
      return {
        url, statusCode := 302, encoding := none, content := .ok []
        header := fun name => if name = "location" then some "/next" else none }
    else
      return {
        url, statusCode := 200, encoding := some "utf-8", content := .ok [72, 101, 108, 108, 111]
        header := fun name => if name = "content-type" then some "text/plain" else none }
  decode _ bytes := .ok (.ofList (bytes.map fun b => Char.ofNat b.toNat))
  encode _ text := .ok (text.toList.map fun c => c.toNat.toUInt8)
  int _ := .error ⟨.valueError, "invalid literal for int() with base 10"⟩
  title _ := ""
  getText body := body

/-- A tool that follows one redirect and returns four characters. -/
def fetchTool : WebFetchTool Unit where
  libraries := movedPages
  security := {
    allowedDirectories := [], allowedDomains := ["example.com"], maxRedirects := 1, maxFetchChars := 4 }

def pageParams : Params := Dict.empty.set (.str "url") (.str "https://example.com/page")

theorem page_requests :
    (∃ urls, (finalState (fetchTool.run asciiBuiltins pageParams ⟨(), []⟩)).requests = [] ++ urls ∧
        (∀ url ∈ urls, fetchTool.Safe asciiBuiltins url) ∧ (urls.length : Int) ≤ 1 + 1) ∧
      ∀ output web', fetchTool.run asciiBuiltins pageParams ⟨(), []⟩ = .ok output web' →
        ∃ text, output.get? "text" = some (.str text) ∧ (text.length : Int) ≤ 4 :=
  run_requests asciiBuiltins fetchTool pageParams ⟨(), []⟩ (by decide) (by decide)

/-- Both pages are requested, and the text of the second is cut off. -/
example : ∃ output web, fetchTool.run asciiBuiltins pageParams ⟨(), []⟩ = .ok output web ∧
    web.requests = ["https://example.com/page", "https://example.com/next"] ∧
    output.get? "text" = some (.str "Hell") :=
  ⟨_, _, rfl, rfl, rfl⟩

end WebFetchTool

end Ochestrate
