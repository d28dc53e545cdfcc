import Ochestrate.Tools.Accounting

/-!
# Whose result a cached one is

The cache of the hub has one entry for each key that callers made up, whatever
the tool, tenant or user of the call. `TracedHub` records for each entry the
run that it is from. `cache_honest_iff` says that every result that is
answered from the cache comes from a run for the same tool, tenant and user
exactly if no call reaches an entry of another one (`Apart`); in
`answered_across_tenants` a tenant gets the output of another tenant's run.
-/

namespace Ochestrate

open ToolHub

variable {ω : Type}

/-- What callers do with a hub. -/
inductive HubEvent (ω : Type)
  | register (tool : Tool ω)
  | invoke (call : ToolCall)

/-- A hub, with the run that the cache entry of each key is from. -/
structure TracedHub (ω : Type) where
  hub : ToolHub ω
  origin : Dict String ToolRun := .empty

/-- The call's key is new in the cache of `hub'`: its entry is from the last
run. -/
def originAfter (origin : Dict String ToolRun) (hub hub' : ToolHub ω) (call : ToolCall) : Dict String ToolRun :=
  match hub.idempotencyCache.get? call.idempotencyKey, hub'.idempotencyCache.get? call.idempotencyKey,
    hub'.runs.getLast? with
  | none, some _, some run => origin.set call.idempotencyKey run
  | _, _, _ => origin

def tracedMachine (B : Builtins) : Machine (TracedHub ω) (HubEvent ω) where
  step s
    | .register tool => some { s with hub := finalState (register tool s.hub) }
    | .invoke call =>
      let hub := finalState (invoke B call s.hub)
      some { hub, origin := originAfter s.origin s.hub hub call }

/-- The calls are of the same tool for the same tenant and user. -/
def SameCaller (call call' : ToolCall) : Prop :=
  call.toolName = call'.toolName ∧ call.tenantId = call'.tenantId ∧ call.userId = call'.userId

instance (call call' : ToolCall) : Decidable (SameCaller call call') := inferInstanceAs (Decidable (_ ∧ _ ∧ _))

/-- A result from the cache was produced by an earlier run of the same tool for
the same tenant and user. -/
def HonestHit (B : Builtins) (s : TracedHub ω) : HubEvent ω → Prop
  | .register _ => True
  | .invoke call =>
    ∀ result hub, invoke B call s.hub = .ok result hub → result.cacheHit = true →
      ∃ run ∈ s.hub.runs, s.origin.get? call.idempotencyKey = some run ∧ run.output = some result.output ∧
        SameCaller run.call call

/-- No call that is let through to an idempotent tool has the key of a run for
another tool, tenant or user. -/
def Apart (s : TracedHub ω) : HubEvent ω → Prop
  | .register _ => True
  | .invoke call =>
    ∀ tool run, s.hub.registry.get? call.toolName = some tool → call.userRole ∈ tool.requiredRoles.map Json.str →
      tool.idempotent = true → s.origin.get? call.idempotencyKey = some run → SameCaller run.call call

/-! ## Where the entries are from -/

/-- The entries of the cache are those with an origin, and each is the output
of its run. -/
structure Traced (s : TracedHub ω) : Prop where
  entry : ∀ key entry, s.hub.idempotencyCache.get? key = some entry →
    ∃ run ∈ s.hub.runs, s.origin.get? key = some run ∧ run.output = some entry.output
  cached : ∀ key, (s.origin.get? key).isSome → (s.hub.idempotencyCache.get? key).isSome

theorem fresh_traced (uuid4 : EStateM Exc ω String) (append : EStateM Exc ω (Fault Exc)) (world : ω) :
    Traced (⟨fresh .empty uuid4 append world, .empty⟩ : TracedHub ω) where
  entry _ _ h := nomatch h
  cached _ h := nomatch h

variable {s : TracedHub ω} {hub' : ToolHub ω} {call : ToolCall}

/-- A call that adds nothing to the cache leaves every origin. -/
theorem Traced.of_cache (ht : Traced s) (hcache : hub'.idempotencyCache = s.hub.idempotencyCache)
    (hruns : s.hub.runs <+: hub'.runs) : Traced ⟨hub', originAfter s.origin s.hub hub' call⟩ := by
  have horigin : originAfter s.origin s.hub hub' call = s.origin := by
    unfold originAfter
    rw [hcache]
    cases s.hub.idempotencyCache.get? call.idempotencyKey <;> rfl
  rw [horigin]
  refine ⟨fun key entry hentry => ?_, fun key horigin => ?_⟩
  · have hentry : s.hub.idempotencyCache.get? key = some entry := hcache ▸ hentry
    obtain ⟨run, hrun, hfrom⟩ := ht.entry key entry hentry
    exact ⟨run, hruns.subset hrun, hfrom⟩
  · show (hub'.idempotencyCache.get? key).isSome
    rw [hcache]
    exact ht.cached key horigin

/-- A call that adds its key to the cache is the origin of the entry. -/
theorem Traced.of_set (ht : Traced s) {output : Dict String Json} {result : ToolInvokeResult}
    (hnew : s.hub.idempotencyCache.get? call.idempotencyKey = none) (houtput : result.output = output)
    (hcache : ∀ key, hub'.idempotencyCache.get? key =
      if key = call.idempotencyKey then some result else s.hub.idempotencyCache.get? key)
    (hruns : hub'.runs = s.hub.runs ++ [⟨call, call.injected, some output⟩]) :
    Traced ⟨hub', originAfter s.origin s.hub hub' call⟩ := by
  have horigin : originAfter s.origin s.hub hub' call =
      s.origin.set call.idempotencyKey ⟨call, call.injected, some output⟩ := by
    unfold originAfter
    rw [hnew, hcache, if_pos rfl, hruns, List.getLast?_concat]
  rw [horigin]
  refine ⟨fun key entry hentry => ?_, fun key hkey => ?_⟩
  · have hentry : hub'.idempotencyCache.get? key = some entry := hentry
    show ∃ run ∈ hub'.runs, (s.origin.set _ _).get? key = some run ∧ run.output = some entry.output
    rw [hcache] at hentry
    rw [hruns, Dict.get?_set]
    split at hentry
    · next hkey =>
      cases hentry
      exact ⟨_, List.mem_append_right _ (List.mem_singleton_self _), if_pos hkey, by rw [houtput]⟩
    · next hkey =>
      obtain ⟨run, hrun, hfrom⟩ := ht.entry key entry hentry
      exact ⟨run, List.mem_append_left _ hrun, by rw [if_neg hkey]; exact hfrom⟩
  · show (hub'.idempotencyCache.get? key).isSome
    have hkey : ((s.origin.set call.idempotencyKey _).get? key).isSome := hkey
    rw [hcache]
    rw [Dict.get?_set] at hkey
    split
    · rfl
    · next hne =>
      rw [if_neg hne] at hkey
      exact ht.cached key hkey

theorem invoke_traced {r : EStateM.Result Exc (ToolHub ω) ToolInvokeResult} (h : Invoked s.hub call r)
    (ht : Traced s) : Traced ⟨finalState r, originAfter s.origin s.hub (finalState r) call⟩ := by
  cases h with
  | unregistered => exact ht.of_cache rfl List.prefix_rfl
  | denied => exact ht.of_cache rfl List.prefix_rfl
  | hit => exact ht.of_cache rfl List.prefix_rfl
  | raised => exact ht.of_cache rfl (List.prefix_append ..)
  | unrecorded _ _ _ _ hrecord =>
    obtain ⟨-, hrecorded⟩ := recorded_error hrecord
    refine ht.of_cache hrecorded.cache ?_
    rw [finalState_error, hrecorded.runs]
    exact List.prefix_append ..
  | @returned tool output world auditRef hub₁ _ _ hcached _ hrecord =>
    obtain ⟨-, hrecorded⟩ := recorded_ok hrecord
    have hruns : (hub₁.keep tool call (freshResult output auditRef)).runs =
        s.hub.runs ++ [⟨call, call.injected, some output⟩] := by
      rw [keep_runs, hrecorded.runs]; rfl
    by_cases hi : tool.idempotent = true
    · have hnew : s.hub.idempotencyCache.get? call.idempotencyKey = none := by
        rw [cached, if_pos hi] at hcached
        exact hcached
      have hcache : ∀ key, (hub₁.keep tool call (freshResult output auditRef)).idempotencyCache.get? key =
          if key = call.idempotencyKey then some (freshResult output auditRef)
          else s.hub.idempotencyCache.get? key := by
        intro key
        rw [keep_get?, hrecorded.cache]
        simp only [hi, true_and]
        rfl
      exact ht.of_set hnew rfl hcache hruns
    · refine ht.of_cache ?_ ?_
      · rw [finalState_ok, keep, if_neg hi, hrecorded.cache]; rfl
      · rw [finalState_ok, hruns]
        exact List.prefix_append ..

theorem step_traced (B : Builtins) : (tracedMachine B : Machine (TracedHub ω) (HubEvent ω)).Keeps
    (fun _ _ => True) Traced := by
  intro s e s' _ hstep ht
  cases e with
  | register tool =>
    cases hstep
    exact ⟨ht.entry, ht.cached⟩
  | invoke call =>
    cases hstep
    exact invoke_traced (invoke_cases B s.hub call) ht

/-! ## Hits -/

/-- A result is from the cache if the tool is idempotent and the key has an
entry. -/
theorem hit_of_invoked {result : ToolInvokeResult} (h : Invoked s.hub call (.ok result hub'))
    (hhit : result.cacheHit = true) : ∃ tool entry, s.hub.registry.get? call.toolName = some tool ∧
      call.userRole ∈ tool.requiredRoles.map Json.str ∧ tool.idempotent = true ∧
      s.hub.idempotencyCache.get? call.idempotencyKey = some entry ∧ result.output = entry.output := by
  cases h with
  | @hit tool entry htool hrole hcached =>
    unfold cached at hcached
    split at hcached
    · next hi => exact ⟨tool, entry, htool, hrole, hi, hcached, rfl⟩
    · cases hcached
  | returned => cases hhit

/-- A hit is honest exactly if it does not reach the entry of another. -/
theorem honest_iff (B : Builtins) (ht : Traced s) (e : HubEvent ω) : HonestHit B s e ↔ Apart s e := by
  cases e with
  | register tool => exact Iff.rfl
  | invoke call =>
    have hinvoked := invoke_cases B s.hub call
    constructor
    · intro hhonest tool run htool hrole hi horigin
      obtain ⟨entry, hentry⟩ := Option.isSome_iff_exists.1 (ht.cached call.idempotencyKey (by rw [horigin]; rfl))
      have hcached : s.hub.cached tool call = some entry := by rw [cached, if_pos hi, hentry]
      have hinvoke : invoke B call s.hub = .ok (hitResult entry) _ := invoke_hit B htool hrole hcached
      obtain ⟨run', -, horigin', -, hsame⟩ := hhonest _ _ hinvoke rfl
      rw [horigin, Option.some.injEq] at horigin'
      exact horigin' ▸ hsame
    · intro hapart result hub' hinvoke hhit
      rw [hinvoke] at hinvoked
      obtain ⟨tool, entry, htool, hrole, hi, hentry, houtput⟩ := hit_of_invoked hinvoked hhit
      obtain ⟨run, hrun, horigin, hrunOutput⟩ := ht.entry _ entry hentry
      exact ⟨run, hrun, horigin, by rw [houtput, hrunOutput], hapart tool run htool hrole hi horigin⟩

/-- Over every history of registrations and calls, the results from the cache
are from runs of the same tool for the same tenant and user exactly if no call
has the key of a run for another. -/
theorem cache_honest_iff (B : Builtins) (uuid4 : EStateM Exc ω String) (append : EStateM Exc ω (Fault Exc))
    (world : ω) (events : List (HubEvent ω)) :
    (tracedMachine B).Meets (HonestHit B) ⟨fresh .empty uuid4 append world, .empty⟩ events ↔
      (tracedMachine B).Meets Apart ⟨fresh .empty uuid4 append world, .empty⟩ events := by
  have hkeeps : (tracedMachine B : Machine (TracedHub ω) (HubEvent ω)).Keeps Apart Traced :=
    Machine.Keeps.mono (step_traced B) fun _ _ _ => trivial
  exact (tracedMachine B).meets_congr hkeeps (fun ht => honest_iff B ht _) (fresh_traced uuid4 append world)

/-! ## One key, two tenants -/

def emailHub : TracedHub Unit := ⟨fresh .empty (pure "event-1") (pure .none) (), .empty⟩

/-- A call of another tenant's user, with the key of `emailCall`. -/
def otherTenantCall : ToolCall :=
  { emailCall with
    traceId := "trace-2", tenantId := "globex", userId := "u2"
    params := Dict.empty.set (.str "to") (.str "eve@globex.com") }

/-- The second tenant's email is not sent; its caller gets the output of the
first tenant's. -/
theorem answered_across_tenants :
    ∃ s result hub, (tracedMachine unusedBuiltins).run emailHub [.register sendEmailTool, .invoke emailCall] = some s ∧
      invoke unusedBuiltins otherTenantCall s.hub = .ok result hub ∧ result.cacheHit = true ∧
      result.output.get? "to" = some (.str "bob@acme.com") ∧ hub.runs.map (·.call.tenantId) = ["acme"] ∧
      ¬ (tracedMachine unusedBuiltins).Meets (HonestHit unusedBuiltins) emailHub
        [.register sendEmailTool, .invoke emailCall, .invoke otherTenantCall] := by
  refine ⟨_, _, _, rfl, rfl, rfl, by decide, by decide, fun hm => ?_⟩
  obtain ⟨run, hrun, -, -, -, htenant, -⟩ := ((hm.2 _ rfl).2 _ rfl).1 _ _ rfl rfl
  obtain rfl : run = ⟨emailCall, emailCall.injected, _⟩ := List.mem_singleton.1 hrun
  exact absurd htenant (by decide)

end Ochestrate
