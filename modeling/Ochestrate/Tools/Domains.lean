import Ochestrate.Framework.Labels
import Ochestrate.Tools.WebFetch

/-!
# Domains and their subdomains

`is_domain_allowed` compares texts: a host is a domain of the list, or ends with
a dot and one. `isDomainAllowed_iff` says that this is a comparison of labels,
`Below`: the last labels of the host are those of a domain of the list, in lower
case. So every URL that a fetch requests has a host below one of these domains
(`run_below`).
-/

namespace Ochestrate

/-- `text.split(".")` -/
def labels (text : String) : List (List Char) := text.toList.splitOn '.'

/-- The last labels of the host are those of the domain, in lower case. -/
def Below (B : Builtins) (host domain : String) : Prop := labels (B.lower domain) <:+ labels (B.lower host)

instance (B : Builtins) (host domain : String) : Decidable (Below B host domain) :=
  inferInstanceAs (Decidable (_ <:+ _))

/-- The comparison of texts: the host is the domain, or ends with a dot and it. -/
theorem below_iff (B : Builtins) (host domain : String) :
    Below B host domain ↔
      B.lower host = B.lower domain ∨ ("." ++ B.lower domain).toList <:+ (B.lower host).toList := by
  have htext : ("." ++ B.lower domain).toList = '.' :: (B.lower domain).toList := String.toList_append
  rw [Below, labels, labels, labels_suffix_iff, String.toList_inj, eq_comm, htext]

/-- Where lower case is one of characters, labels are compared one by one. -/
theorem below_iff_map {B : Builtins} {f : Char → Char} (hlower : ∀ text, (B.lower text).toList = text.toList.map f)
    (hdot : ∀ c, f c = '.' ↔ c = '.') (host domain : String) :
    Below B host domain ↔ (labels domain).map (List.map f) <:+ (labels host).map (List.map f) := by
  rw [Below, labels, labels, hlower, hlower, splitOn_map hdot, splitOn_map hdot]
  rfl

namespace ToolSecurityConfig

variable (B : Builtins) (network : Network) (security : ToolSecurityConfig)

/-- A URL is let through if its scheme is allowed and its host is, as texts. -/
theorem isDomainAllowed_eq {url : String} {parsed : ParsedUrl} (hparsed : network.urlparse url = .ok parsed) :
    security.isDomainAllowed B network url = .ok (decide (B.lower parsed.scheme ∈ security.schemes B ∧
      B.lower (parsed.hostname.getD "") ≠ "" ∧ ("*" ∈ security.allowedDomains ∨
        ∃ d ∈ security.allowedDomains, Below B (parsed.hostname.getD "") d))) := by
  have hany : (security.allowedDomains.any fun d => decide (B.lower (parsed.hostname.getD "") = B.lower d) ||
      decide (("." ++ B.lower d).toList <:+ (B.lower (parsed.hostname.getD "")).toList)) =
      decide (∃ d ∈ security.allowedDomains, Below B (parsed.hostname.getD "") d) := by
    rw [Bool.eq_iff_iff, List.any_eq_true, decide_eq_true_iff]
    simp only [below_iff, Bool.or_eq_true, decide_eq_true_iff]
  unfold isDomainAllowed
  rw [hparsed]
  change (if B.lower parsed.scheme ∉ security.schemes B then _ else _) = _
  by_cases hscheme : B.lower parsed.scheme ∈ security.schemes B
  · rw [if_neg (not_not.2 hscheme)]
    by_cases hhost : B.lower (parsed.hostname.getD "") = ""
    · simp only [hhost, ↓reduceIte, ne_eq, not_true_eq_false, false_and, and_false, decide_false]
      rfl
    · by_cases hstar : "*" ∈ security.allowedDomains
      · simp only [hscheme, hhost, hstar, ↓reduceIte, ne_eq, not_false_eq_true, true_or, and_self, decide_true]
        rfl
      · simp only [hscheme, hhost, hstar, ↓reduceIte, ne_eq, not_false_eq_true, false_or, true_and]
        exact congrArg Except.ok hany
  · rw [if_pos hscheme, decide_eq_false fun h => hscheme h.1]
    rfl

/-- For every URL with an allowed scheme and a host, and every list of domains
without `*`: the URL is let through exactly if the last labels of the host are
those of a domain of the list, in lower case. -/
theorem isDomainAllowed_iff (hlower : ∀ text, text ≠ "" → B.lower text ≠ "") {url host : String} {parsed : ParsedUrl}
    (hparsed : network.urlparse url = .ok parsed) (hscheme : B.lower parsed.scheme ∈ security.schemes B)
    (hhost : parsed.hostname = some host) (hne : host ≠ "") (hstar : "*" ∉ security.allowedDomains) :
    ∃ allowed, security.isDomainAllowed B network url = .ok allowed ∧
      (allowed = true ↔ ∃ d ∈ security.allowedDomains, labels (B.lower d) <:+ labels (B.lower host)) := by
  refine ⟨_, isDomainAllowed_eq B network security hparsed, ?_⟩
  rw [decide_eq_true_iff, hhost, Option.getD_some]
  constructor
  · rintro ⟨-, -, hstar' | hbelow⟩
    · exact absurd hstar' hstar
    · exact hbelow
  · exact fun hbelow => ⟨hscheme, hlower host hne, .inr hbelow⟩

/-- A URL that passes has a host below a domain of the list. -/
theorem below_of_isUrlSafe (hstar : "*" ∉ security.allowedDomains) {url : String}
    (h : security.isUrlSafe B network url = .ok true) :
    ∃ parsed, network.urlparse url = .ok parsed ∧
      ∃ d ∈ security.allowedDomains, Below B (parsed.hostname.getD "") d := by
  cases hparsed : network.urlparse url with
  | error exc =>
    rw [isUrlSafe, hparsed] at h
    cases h
  | ok parsed =>
    refine ⟨parsed, rfl, ?_⟩
    have hallowed : security.isDomainAllowed B network url = .ok true := by
      unfold isUrlSafe at h
      rw [hparsed] at h
      change (if B.lower parsed.scheme ∉ security.schemes B then _ else _) = _ at h
      split at h
      · cases h
      · cases hdomain : security.isDomainAllowed B network url with
        | error exc =>
          rw [hdomain] at h
          cases h
        | ok allowed =>
          cases allowed with
          | true => rfl
          | false =>
            rw [hdomain] at h
            cases h
    rw [isDomainAllowed_eq B network security hparsed, Except.ok.injEq, decide_eq_true_iff] at hallowed
    exact hallowed.2.2.resolve_left hstar

end ToolSecurityConfig

/-- Every URL that a fetch requests has a host below a domain of the list,
whatever the servers answer. -/
theorem WebFetchTool.run_below {ω : Type} (B : Builtins) (tool : WebFetchTool ω) (params : Params) (web : Web ω)
    (hstar : "*" ∉ tool.security.allowedDomains) :
    ∃ urls, (finalState (tool.run B params web)).requests = web.requests ++ urls ∧
      ∀ url ∈ urls, ∃ parsed, tool.libraries.urlparse url = .ok parsed ∧
        ∃ d ∈ tool.security.allowedDomains, Below B (parsed.hostname.getD "") d := by
  obtain ⟨urls, hurls, hsafe, -⟩ := (tool.run_along B params).finalState web
  refine ⟨urls, hurls, fun url hurl => ?_⟩
  exact ToolSecurityConfig.below_of_isUrlSafe B tool.libraries.toNetwork tool.security hstar (hsafe url hurl)

/-! ## Two hosts -/

theorem asciiBuiltins_lower_ne {text : String} (h : text ≠ "") : asciiBuiltins.lower text ≠ "" := by
  intro hlower
  have hchars : text.toList.map Char.toLower = [] := by
    rw [← String.toList_ofList (l := text.toList.map Char.toLower)]
    exact String.toList_inj.2 hlower
  exact h (String.toList_inj.1 (List.map_eq_nil_iff.1 hchars))

/-- URLs whose host is their text. -/
def hostNetwork : Network where
  urlparse url := .ok { scheme := "https", netloc := url, hostname := some url, path := "", query := "" }
  urljoin _ location := .ok location
  ipAddress _ := none
  getaddrinfo _ := .gaierror

def exampleDomain : ToolSecurityConfig where
  allowedDirectories := []
  allowedDomains := ["Example.com"]

/-- A subdomain is let through, and letters in front are not. -/
theorem isDomainAllowed_iff_example :
    (∃ allowed, exampleDomain.isDomainAllowed asciiBuiltins hostNetwork "docs.example.com" = .ok allowed ∧
      (allowed = true ↔ ∃ d ∈ exampleDomain.allowedDomains,
        labels (asciiBuiltins.lower d) <:+ labels (asciiBuiltins.lower "docs.example.com"))) ∧
    ∃ allowed, exampleDomain.isDomainAllowed asciiBuiltins hostNetwork "badexample.com" = .ok allowed ∧
      (allowed = true ↔ ∃ d ∈ exampleDomain.allowedDomains,
        labels (asciiBuiltins.lower d) <:+ labels (asciiBuiltins.lower "badexample.com")) :=
  ⟨ToolSecurityConfig.isDomainAllowed_iff asciiBuiltins hostNetwork exampleDomain (fun _ => asciiBuiltins_lower_ne) rfl
      (by decide) rfl (by decide) (by decide),
    ToolSecurityConfig.isDomainAllowed_iff asciiBuiltins hostNetwork exampleDomain (fun _ => asciiBuiltins_lower_ne) rfl
      (by decide) rfl (by decide) (by decide)⟩

example : exampleDomain.isDomainAllowed asciiBuiltins hostNetwork "docs.example.com" = .ok true ∧
    exampleDomain.isDomainAllowed asciiBuiltins hostNetwork "badexample.com" = .ok false := by decide

end Ochestrate
