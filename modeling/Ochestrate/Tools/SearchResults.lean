import Ochestrate.Tools.WebSearch

/-!
# The results of a search

What a search returns for a page: the first results that have an anchor, each as
an item of its own (`IsItem`), with what was fetched from its URL or the error.
A link that cannot be read, or not be checked, raises outside the handler of the
fetch (`Troubled`), and the loop adds an item before it looks at the limit;
`run_returns_first_iff` says that nothing else stands in the way.
-/

namespace Ochestrate

namespace WebSearchTool

variable {ω : Type} (B : Builtins) (tool : WebSearchTool ω)

/-- The anchors of a page with their snippets, in its order. -/
def anchored (results : List SearchResult) : List (Anchor × Option String) :=
  results.filterMap fun result => result.anchor.map fun anchor => (anchor, result.snippet)

/-- The URL of a result is fetched. -/
def Fetches (includeFetch : Bool) (href : String) : Prop := includeFetch = true ∧ href ≠ "" ∧ tool.Safe B href

/-- The item is that of the result alone; if its URL is fetched, with what one run
of the fetch tool returned for it, or the error it raised. -/
def IsItem (includeFetch : Bool) (result : Anchor × Option String) (item : Dict String Json) : Prop :=
  ∃ href, tool.normalizeResultUrl (result.1.href.getD "") = .ok href ∧
    ((¬ tool.Fetches B includeFetch href ∧ item = itemOf result.1 result.2 href) ∨
      (tool.Fetches B includeFetch href ∧ ∃ web web',
        (∃ output, tool.fetchTool.run B (fetchParams href) web = .ok output web' ∧
          item = (itemOf result.1 result.2 href).set "fetched_excerpt" ((output.get? "text").getD (.str ""))) ∨
        ∃ exc, tool.fetchTool.run B (fetchParams href) web = .error exc web' ∧
          item = (itemOf result.1 result.2 href).set "fetch_error" (.str exc.message)))

/-- Reading the link raises, or checking the URL that is to be fetched. -/
def Troubled (includeFetch : Bool) (anchor : Anchor) : Prop :=
  match tool.normalizeResultUrl (anchor.href.getD "") with
  | .error _ => True
  | .ok href =>
    includeFetch = true ∧ href ≠ "" ∧ ∃ exc, tool.security.isUrlSafe B tool.libraries.toNetwork href = .error exc

/-- A search with these arguments, of a page with these results, returns: its items
are those of the first results with an anchor, in their order. A troubled link
leaves the other items as they should be. -/
def ReturnsFirst (args : SearchArguments) (results : List SearchResult)
    (outcome : EStateM.Result Exc (Web ω) (Dict String Json)) : Prop :=
  ∃ items web, outcome = .ok (tool.output args.query items) web ∧
    List.Forall₂
      (fun result item => ¬ tool.Troubled B args.includeFetch result.1 → tool.IsItem B args.includeFetch result item)
      ((anchored results).take args.maxResults.toNat) items

variable {tool} {args : SearchArguments} {includeFetch : Bool} {web : Web ω}

/-- Fetching does not raise. -/
theorem fetched_eq (item : Dict String Json) (href : String) (web : Web ω) :
    tool.fetched B item href web =
      match tool.fetchTool.run B (fetchParams href) web with
      | .ok output web' => .ok (item.set "fetched_excerpt" ((output.get? "text").getD (.str ""))) web'
      | .error exc web' => .ok (item.set "fetch_error" (.str exc.message)) web' := by
  unfold fetched
  cases hrun : tool.fetchTool.run B (fetchParams href) web with
  | ok output web' =>
    have hreturn : (tool.fetchTool.run B (fetchParams href) >>= fun output =>
        pure (item.set "fetched_excerpt" ((output.get? "text").getD (.str "")))) web =
        .ok (item.set "fetched_excerpt" ((output.get? "text").getD (.str ""))) web' := bind_ok hrun _
    exact tryCatch_ok hreturn _
  | error exc web' => exact tryCatch_error (bind_error hrun _) _

/-- A link without trouble gives its item. -/
theorem entry_returns {result : Anchor × Option String} (h : ¬ tool.Troubled B includeFetch result.1) (web : Web ω) :
    ∃ item web', tool.entry B includeFetch result.1 result.2 web = .ok item web' ∧
      tool.IsItem B includeFetch result item := by
  unfold Troubled at h
  unfold entry IsItem
  cases hhref : tool.normalizeResultUrl (result.1.href.getD "") with
  | error exc => simp [hhref] at h
  | ok href =>
    simp only [hhref] at h
    rw [ofExcept_ok_bind]
    by_cases hskip : (!includeFetch || decide (href = "")) = true
    · rw [if_pos hskip]
      refine ⟨_, _, rfl, href, rfl, .inl ⟨fun hfetch => ?_, rfl⟩⟩
      simp [hfetch.1, hfetch.2.1] at hskip
    · rw [if_neg hskip]
      simp only [Bool.or_eq_true, Bool.not_eq_true', decide_eq_true_eq, not_or, Bool.not_eq_false] at hskip
      cases hsafe : tool.security.isUrlSafe B tool.libraries.toNetwork href with
      | error exc => exact absurd ⟨hskip.1, hskip.2, exc, hsafe⟩ h
      | ok safe =>
        rw [ofExcept_ok_bind]
        cases safe with
        | false =>
          refine ⟨_, _, rfl, href, rfl, .inl ⟨fun hfetch => ?_, rfl⟩⟩
          have hboth := hsafe.symm.trans hfetch.2.2
          cases hboth
        | true =>
          rw [if_neg (by simp), fetched_eq]
          cases hrun : tool.fetchTool.run B (fetchParams href) web with
          | ok output web' =>
            exact ⟨_, _, rfl, href, rfl, .inr ⟨⟨hskip.1, hskip.2, hsafe⟩, web, web', .inl ⟨output, hrun, rfl⟩⟩⟩
          | error exc web' =>
            exact ⟨_, _, rfl, href, rfl, .inr ⟨⟨hskip.1, hskip.2, hsafe⟩, web, web', .inr ⟨exc, hrun, rfl⟩⟩⟩

/-- A troubled link raises. -/
theorem entry_raises {anchor : Anchor} (h : tool.Troubled B includeFetch anchor) (snippet : Option String) (web : Web ω) :
    ∃ exc, tool.entry B includeFetch anchor snippet web = .error exc web := by
  unfold Troubled at h
  unfold entry
  cases hhref : tool.normalizeResultUrl (anchor.href.getD "") with
  | error exc => exact ⟨exc, rfl⟩
  | ok href =>
    simp only [hhref] at h
    obtain ⟨hinclude, hne, exc, hexc⟩ := h
    refine ⟨exc, ?_⟩
    rw [ofExcept_ok_bind]
    rw [if_neg (by simp [hinclude, hne]), hexc]
    rfl

/-! ## The loop -/

section Loop

variable {result : SearchResult}

theorem anchored_of_none (h : result.anchor = none) (results : List SearchResult) :
    anchored (result :: results) = anchored results :=
  List.filterMap_cons_none (by rw [h]; rfl)

theorem anchored_of_some {anchor : Anchor} (h : result.anchor = some anchor) (results : List SearchResult) :
    anchored (result :: results) = (anchor, result.snippet) :: anchored results :=
  List.filterMap_cons_some (by rw [h]; rfl)

theorem collect_of_none (h : result.anchor = none) (results : List SearchResult) (items : List (Dict String Json)) :
    tool.collect B args (result :: results) items = tool.collect B args results items := by
  simp only [collect, h]

/-- The item is added, and the limit looked at. -/
theorem collect_of_ok {anchor : Anchor} (h : result.anchor = some anchor) {item : Dict String Json} {web' : Web ω}
    (hitem : tool.entry B args.includeFetch anchor result.snippet web = .ok item web') (results : List SearchResult)
    (items : List (Dict String Json)) :
    tool.collect B args (result :: results) items web =
      if args.maxResults ≤ (items ++ [item]).length then .ok (items ++ [item]) web'
      else tool.collect B args results (items ++ [item]) web' := by
  simp only [collect, h]
  rw [bind_ok hitem]
  split <;> rfl

theorem collect_of_error {anchor : Anchor} (h : result.anchor = some anchor) {exc : Exc} {web' : Web ω}
    (hentry : tool.entry B args.includeFetch anchor result.snippet web = .error exc web') (results : List SearchResult)
    (items : List (Dict String Json)) : tool.collect B args (result :: results) items web = .error exc web' := by
  simp only [collect, h]
  exact bind_error hentry _

/-- Before the limit is reached, without trouble: the items of the first results. -/
theorem collect_returns (results : List SearchResult) (items : List (Dict String Json)) (web : Web ω)
    (hlt : (items.length : Int) < args.maxResults)
    (h : ∀ entry ∈ (anchored results).take (args.maxResults.toNat - items.length),
      ¬ tool.Troubled B args.includeFetch entry.1) :
    ∃ items' web', tool.collect B args results items web = .ok (items ++ items') web' ∧
      List.Forall₂ (tool.IsItem B args.includeFetch) ((anchored results).take (args.maxResults.toNat - items.length))
        items' := by
  induction results generalizing items web with
  | nil =>
    rw [anchored, List.filterMap_nil, List.take_nil]
    exact ⟨[], web, congrArg (EStateM.Result.ok · web) (List.append_nil items).symm, .nil⟩
  | cons result results ih =>
    cases hanchor : result.anchor with
    | none =>
      rw [anchored_of_none hanchor] at h ⊢
      rw [collect_of_none B hanchor]
      exact ih items web hlt h
    | some anchor =>
      obtain ⟨left, hleft⟩ : ∃ left, args.maxResults.toNat - items.length = left + 1 :=
        ⟨args.maxResults.toNat - items.length - 1, by omega⟩
      rw [anchored_of_some hanchor, hleft, List.take_succ_cons] at h ⊢
      obtain ⟨item, web', hitem, hspec⟩ := entry_returns B (h _ (List.mem_cons_self ..)) web
      have hlength : (items ++ [item]).length = items.length + 1 := by rw [List.length_append, List.length_singleton]
      rw [collect_of_ok B hanchor hitem, hlength]
      split
      · next hfull =>
        obtain rfl : left = 0 := by omega
        exact ⟨[item], web', rfl, .cons hspec .nil⟩
      · next hroom =>
        have hrest : args.maxResults.toNat - (items ++ [item]).length = left := by omega
        obtain ⟨items', web'', hcollect, hitems⟩ := ih (items ++ [item]) web' (by omega)
          (by rw [hrest]; exact fun entry hmem => h entry (List.mem_cons_of_mem _ hmem))
        rw [hrest] at hitems
        refine ⟨item :: items', web'', ?_, .cons hspec hitems⟩
        rw [hcollect, List.append_assoc]
        rfl

/-- A troubled link before the limit is reached. -/
theorem collect_raises (results : List SearchResult) (items : List (Dict String Json)) (web : Web ω)
    (hlt : (items.length : Int) < args.maxResults)
    (h : ∃ entry ∈ (anchored results).take (args.maxResults.toNat - items.length),
      tool.Troubled B args.includeFetch entry.1) :
    ∃ exc web', tool.collect B args results items web = .error exc web' := by
  induction results generalizing items web with
  | nil =>
    obtain ⟨entry, hmem, -⟩ := h
    rw [anchored, List.filterMap_nil, List.take_nil] at hmem
    cases hmem
  | cons result results ih =>
    cases hanchor : result.anchor with
    | none =>
      rw [anchored_of_none hanchor] at h
      rw [collect_of_none B hanchor]
      exact ih items web hlt h
    | some anchor =>
      by_cases hfirst : tool.Troubled B args.includeFetch anchor
      · obtain ⟨exc, hexc⟩ := entry_raises B hfirst result.snippet web
        exact ⟨exc, web, collect_of_error B hanchor hexc results items⟩
      · obtain ⟨left, hleft⟩ : ∃ left, args.maxResults.toNat - items.length = left + 1 :=
          ⟨args.maxResults.toNat - items.length - 1, by omega⟩
        rw [anchored_of_some hanchor, hleft, List.take_succ_cons] at h
        obtain ⟨entry, hmem, htrouble⟩ := h
        rcases List.mem_cons.1 hmem with rfl | hmem
        · exact absurd htrouble hfirst
        · have hreturns : ¬ tool.Troubled B args.includeFetch (anchor, result.snippet).1 := hfirst
          obtain ⟨item, web', hitem, -⟩ := entry_returns B hreturns web
          have hlength : (items ++ [item]).length = items.length + 1 := by
            rw [List.length_append, List.length_singleton]
          have hroom : 0 < left := by
            obtain ⟨i, hi, -⟩ := List.mem_take_iff_getElem.1 hmem
            omega
          have hrest : args.maxResults.toNat - (items ++ [item]).length = left := by omega
          rw [collect_of_ok B hanchor hitem, if_neg (by omega)]
          exact ih _ web' (by omega) ⟨entry, by rw [hrest]; exact hmem, htrouble⟩

/-- With a limit of zero the first result with an anchor is added all the same. -/
theorem collect_zero (hmax : args.maxResults = 0) (results : List SearchResult) (web : Web ω) :
    (anchored results = [] ∧ tool.collect B args results [] web = .ok [] web) ∨
      (anchored results ≠ [] ∧ ((∃ item web', tool.collect B args results [] web = .ok [item] web') ∨
        ∃ exc web', tool.collect B args results [] web = .error exc web')) := by
  induction results with
  | nil => exact .inl ⟨rfl, rfl⟩
  | cons result results ih =>
    cases hanchor : result.anchor with
    | none =>
      rw [anchored_of_none hanchor, collect_of_none B hanchor]
      exact ih
    | some anchor =>
      refine .inr ⟨by rw [anchored_of_some hanchor]; simp, ?_⟩
      cases hentry : tool.entry B args.includeFetch anchor result.snippet web with
      | ok item web' =>
        refine .inl ⟨item, web', ?_⟩
        rw [collect_of_ok B hanchor hentry, hmax]
        exact if_pos (by simp)
      | error exc web' => exact .inr ⟨exc, web', collect_of_error B hanchor hentry results []⟩

end Loop

/-! ## Runs -/

/-- Once the page is there, a run is its loop. -/
theorem run_eq {params : Params} {page : String} {web' : Web ω} (hargs : tool.arguments B params = .ok args)
    (hpage : tool.page args.query web = .ok page web') :
    tool.run B params web =
      match tool.collect B args (tool.libraries.select page) [] web' with
      | .ok items web'' => .ok (tool.output args.query items) web''
      | .error exc web'' => .error exc web'' := by
  rw [run, hargs, ofExcept_ok_bind, bind_ok hpage]
  cases hcollect : tool.collect B args (tool.libraries.select page) [] web' with
  | ok items web'' => exact bind_ok hcollect _
  | error exc web'' => exact bind_error hcollect _

theorem length_eq_of_output_eq {query : String} {items items' : List (Dict String Json)}
    (h : tool.output query items = tool.output query items') : items.length = items'.length := by
  have hresults : ∀ items, (tool.output query items).get? "results" =
      some (.arr (items.map fun item => .obj item.entries)) := fun items => Dict.get?_set_self _ _ _
  have hitems := hresults items
  rw [h, hresults items'] at hitems
  have hlength := congrArg List.length (Json.arr.inj (Option.some.inj hitems))
  simpa using hlength.symm

/-- For every page that the search leads to and every limit: the run returns the
first results with their own items exactly if there is no result to return where
the limit is zero, and none of the results to return has a troubled link. -/
theorem run_returns_first_iff (tool : WebSearchTool ω) (params : Params) (args : SearchArguments) (page : String)
    (web web' : Web ω) (hargs : tool.arguments B params = .ok args) (hmax : 0 ≤ args.maxResults)
    (hpage : tool.page args.query web = .ok page web') :
    tool.ReturnsFirst B args (tool.libraries.select page) (tool.run B params web) ↔
      (args.maxResults = 0 → anchored (tool.libraries.select page) = []) ∧
        ∀ result ∈ (anchored (tool.libraries.select page)).take args.maxResults.toNat,
          ¬ tool.Troubled B args.includeFetch result.1 := by
  rw [run_eq B hargs hpage, ReturnsFirst]
  constructor
  · intro ⟨items, web'', hrun, hitems⟩
    refine ⟨fun hzero => ?_, fun result hmem htrouble => ?_⟩
    · rcases collect_zero B hzero (tool.libraries.select page) web' with
        ⟨hnil, -⟩ | ⟨-, ⟨item, web₁, hcollect⟩ | ⟨exc, web₁, hcollect⟩⟩
      · exact hnil
      · rw [hcollect] at hrun
        have hlength := length_eq_of_output_eq (EStateM.Result.ok.inj hrun).1
        rw [← hitems.length_eq, hzero] at hlength
        simp at hlength
      · rw [hcollect] at hrun
        cases hrun
    · have hpositive : 0 < args.maxResults.toNat := by
        obtain ⟨i, hi, -⟩ := List.mem_take_iff_getElem.1 hmem
        omega
      obtain ⟨exc, web₁, hcollect⟩ := collect_raises B (tool.libraries.select page) [] web'
        (by rw [List.length_nil]; omega) ⟨result, hmem, htrouble⟩
      rw [hcollect] at hrun
      cases hrun
  · intro ⟨hzero, hfine⟩
    by_cases hlimit : args.maxResults = 0
    · rcases collect_zero B hlimit (tool.libraries.select page) web' with ⟨-, hcollect⟩ | ⟨hne, -⟩
      · rw [hcollect, hlimit]
        exact ⟨[], web', rfl, .nil⟩
      · exact absurd (hzero hlimit) hne
    · obtain ⟨items, web'', hcollect, hitems⟩ := collect_returns B (tool.libraries.select page) [] web'
        (by rw [List.length_nil]; omega) hfine
      rw [hcollect]
      refine ⟨items, web'', rfl, ?_⟩
      rw [List.length_nil, Nat.sub_zero] at hitems
      exact hitems.imp fun result _ hitem (_ : ¬ tool.Troubled B args.includeFetch result.1) => hitem

/-! ## A page with a broken link -/

/-- A page with a good link, a result without one, and a link that is no URL. -/
def brokenPage : List SearchResult :=
  [⟨some ⟨some "https://example.com/page", "Policy"⟩, some "All policies"⟩, ⟨none, none⟩,
    ⟨some ⟨some "http://[", "Broken"⟩, none⟩]

/-- A search endpoint that answers with the page. -/
def brokenPages : SearchLibraries Unit := {
  WebFetchTool.movedPages with
  urlparse := fun url =>
    if url = "http://[" then .error ⟨.valueError, "Invalid IPv6 URL"⟩ else WebFetchTool.movedPages.urlparse url
  send := fun url _ => return {
    url, statusCode := 200, encoding := some "utf-8", content := .ok [], header := fun _ => none }
  redirectTarget := fun _ _ => .ok none
  quotePlus := id
  unquote := id
  select := fun _ => brokenPage }

def limitParams (limit : Int) : Params :=
  Dict.empty.update [(.str "query", .str "policy"), (.str "max_results", .int limit)]

/-- The good link is returned, with what was fetched from it. -/
theorem run_returns_first_iff_good :
    (searchTool brokenPages).ReturnsFirst asciiBuiltins ⟨"policy", 1, true⟩ brokenPage
      ((searchTool brokenPages).run asciiBuiltins (limitParams 1) ⟨(), []⟩) := by
  refine (run_returns_first_iff asciiBuiltins (searchTool brokenPages) (limitParams 1) ⟨"policy", 1, true⟩ "" ⟨(), []⟩
    ⟨(), ["https://duckduckgo.com/html/?q=policy"]⟩ rfl (by decide) rfl).2 ⟨fun h => absurd h (by decide), ?_⟩
  intro result hresult
  obtain rfl := List.mem_singleton.1 (hresult : result ∈ [(_, _)])
  rintro ⟨-, -, exc, hexc⟩
  have hsafe : (searchTool brokenPages).security.isUrlSafe asciiBuiltins (searchTool brokenPages).libraries.toNetwork
      "https://example.com/page" = .ok true := rfl
  cases hsafe.symm.trans hexc

/-- With a limit of zero the good link is returned as well, and with a limit of
two the broken one raises. -/
theorem exists_not_returns_first :
    ¬ (searchTool brokenPages).ReturnsFirst asciiBuiltins ⟨"policy", 0, true⟩ brokenPage
        ((searchTool brokenPages).run asciiBuiltins (limitParams 0) ⟨(), []⟩) ∧
      ¬ (searchTool brokenPages).ReturnsFirst asciiBuiltins ⟨"policy", 2, true⟩ brokenPage
        ((searchTool brokenPages).run asciiBuiltins (limitParams 2) ⟨(), []⟩) := by
  constructor
  · intro ⟨items, web, hrun, hitems⟩
    obtain ⟨item, web', hone⟩ : ∃ item web', (searchTool brokenPages).run asciiBuiltins (limitParams 0) ⟨(), []⟩ =
        .ok ((searchTool brokenPages).output "policy" [item]) web' := ⟨_, _, rfl⟩
    have hlength := length_eq_of_output_eq (EStateM.Result.ok.inj (hone.symm.trans hrun)).1
    have hnone := hitems.length_eq
    change 0 = items.length at hnone
    rw [← hnone] at hlength
    cases hlength
  · rintro ⟨items, web, hrun, -⟩
    obtain ⟨exc, web', hraises⟩ : ∃ exc web', (searchTool brokenPages).run asciiBuiltins (limitParams 2) ⟨(), []⟩ =
        .error exc web' := ⟨_, _, rfl⟩
    cases hraises.symm.trans hrun

end WebSearchTool

end Ochestrate
