import Mathlib.Data.List.Pairwise
import Ochestrate.Agents.Outcomes
import Ochestrate.Schemas.Same

/-!
# One run for each trace, tool and parameters

The executor makes a key of the trace id, the tool's name and the text of the
merged parameters (`rawKey`), and the hub keeps the result of an idempotent tool
under it. `Consistent` is the invariant that ties the cache, the runs that returned
and the actions so far together: a success has the output of a run that was
`written` as it is, and for an idempotent tool that of the entry in the cache.
Equal dictionaries are written differently if their entries were set in another
order. So over every sequence of executions on a new hub that records every event an
idempotent tool returns once for each trace, tool and parameters exactly if no call
runs it again for parameters that were `Rewritten` (`session_idempotent_iff`);
`email_reordered` is an email that is sent twice.
-/

namespace Ochestrate

open ToolHub

/-- What the key of a call is made of: the parameters as they are written. -/
def ToolCall.written (call : ToolCall) : String × String × Params := (call.traceId, call.toolName, call.params)

/-- Calls of one tool in one trace with equal parameters. -/
structure ToolCall.Same (call call' : ToolCall) : Prop where
  traceId : call.traceId = call'.traceId
  toolName : call.toolName = call'.toolName
  params : call.params.Same call'.params

theorem ToolCall.Same.symm {call call' : ToolCall} (h : call.Same call') : call'.Same call :=
  ⟨h.traceId.symm, h.toolName.symm, h.params.symm⟩

theorem ToolCall.written_inj {call call' : ToolCall} (h : call.written = call'.written) :
    call.traceId = call'.traceId ∧ call.toolName = call'.toolName ∧ call.params = call'.params := by
  simpa only [ToolCall.written, Prod.mk.injEq] using h

theorem ToolCall.Same.of_written {call call' : ToolCall} (h : call.written = call'.written) : call.Same call' := by
  obtain ⟨htrace, hname, hparams⟩ := ToolCall.written_inj h
  exact ⟨htrace, hname, hparams ▸ .refl call.params⟩

theorem ToolCall.Same.written {call call' : ToolCall} (h : call.Same call') (hparams : call.params = call'.params) :
    call.written = call'.written := by
  rw [ToolCall.written, ToolCall.written, h.traceId, h.toolName, hparams]

namespace ToolHub

variable {ω : Type}

/-- Every event is recorded. -/
def Records (audit : AuditLogger ω) : Prop := ∀ world, audit.fault world = .none

/-- The runs of idempotent tools that returned. -/
def idempotentCompletions (hub : ToolHub ω) : List ToolRun :=
  hub.completions.filter fun run => hub.idempotent run.call.toolName

/-- The result is the output of a run that returned, for a call written alike, and its
reference is to the event of that run. -/
def FromRun (hub : ToolHub ω) (call : ToolCall) (output : Dict String Json) (auditRef : Option String) : Prop :=
  ∃ run ∈ hub.completions, run.call.written = call.written ∧ run.output = some output ∧
    ∃ event ∈ hub.audit.log, event.payload = auditPayload run.call ∧ auditRef = some event.eventId

/-- The result is the output of a run that returned, for the same call, and its
reference is to the event of that run. -/
def HasRun (hub : ToolHub ω) (call : ToolCall) (output : Dict String Json) (auditRef : Option String) : Prop :=
  ∃ run ∈ hub.completions, run.call.Same call ∧ run.output = some output ∧
    ∃ event ∈ hub.audit.log, event.payload = auditPayload run.call ∧ auditRef = some event.eventId

/-- The call runs an idempotent tool and the run returns, although one has returned
for the same call, with its parameters written differently. -/
structure Rewritten (hub : ToolHub ω) (call : ToolCall) : Prop where
  completes : ∃ tool output world, hub.completion call = some (tool, output, world) ∧ tool.idempotent = true
  before : ∃ run ∈ hub.completions, run.call.Same call ∧ run.call.params ≠ call.params

variable {hub hub' : ToolHub ω} {call : ToolCall}

theorem record_ok {payload : AuditPayload} {eventId : String} (h : record payload hub = .ok eventId hub') :
    ∃ world, hub' = hub.logged payload eventId world := by
  obtain ⟨-, eventId', world, hok⟩ | ⟨exc, world, -, hbefore⟩ | ⟨exc, eventId', world, -, hafter⟩ :=
    record_cases payload hub
  · rw [hok] at h
    cases h
    exact ⟨world, rfl⟩
  · rw [hbefore] at h; cases h
  · rw [hafter] at h; cases h

/-- Where every event is recorded, recording returns. -/
theorem record_returns (hr : Records hub.audit) {payload : AuditPayload} {exc : Exc} :
    record payload hub ≠ .error exc hub' := by
  intro h
  obtain ⟨hraises, -⟩ := recorded_error h
  rw [hr hub.world] at hraises
  cases hraises

/-- More runs and events leave a result from a run. -/
theorem FromRun.mono {output : Dict String Json} {auditRef : Option String} (h : hub.FromRun call output auditRef)
    (hruns : ∀ run ∈ hub.completions, run ∈ hub'.completions) (hlog : ∀ event ∈ hub.audit.log, event ∈ hub'.audit.log) :
    hub'.FromRun call output auditRef := by
  obtain ⟨run, hrun, hwritten, houtput, event, hevent, hpayload⟩ := h
  exact ⟨run, hruns run hrun, hwritten, houtput, event, hlog event hevent, hpayload⟩

theorem FromRun.hasRun {output : Dict String Json} {auditRef : Option String} (h : hub.FromRun call output auditRef) :
    hub.HasRun call output auditRef := by
  obtain ⟨run, hrun, hwritten, hresult⟩ := h
  exact ⟨run, hrun, .of_written hwritten, hresult⟩

end ToolHub

namespace ExecutorAgent

variable {ω : Type}

/-- The steps and the other arguments of one call of `execute`. -/
structure Execution where
  steps : List Step
  context : ExecuteContext

/-- `f"{trace_id}:{tool_name}:{params}"` -/
def rawKey (B : Builtins) (call : ToolCall) : String := call.traceId ++ ":" ++ call.toolName ++ ":" ++ B.repr call.params

namespace Execution

/-- The calls of the hub in an execution that the policy lets through. -/
def calls (B : Builtins) (e : Execution) : List ToolCall :=
  if e.context.policy.autoExecute then (callsOf B e.context e.steps).1 else []

def run (B : Builtins) (e : Execution) : EStateM Exc (ToolHub ω) (List Action) := execute B e.steps e.context

end Execution

/-- Executions one after the other on one hub; the actions of each. -/
def session (B : Builtins) (executions : List Execution) : EStateM Exc (ToolHub ω) (List (List Action)) :=
  executions.mapM (Execution.run B)

/-- The calls of a session, each with its action. -/
def entries (B : Builtins) (executions : List Execution) (actions : List (List Action)) : List (ToolCall × Action) :=
  (List.zipWith (fun e actions => (e.calls B).zip actions) executions actions).flatten

/-- What the actions of a session and its runs have to do with each other. -/
structure Idempotent (hub : ToolHub ω) (entries : List (ToolCall × Action)) : Prop where
  /-- The run of an idempotent tool returns at most once for each call. -/
  once : hub.idempotentCompletions.Pairwise fun run run' => ¬ run.call.Same run'.call
  /-- A success has the output and the event of a run of its call. -/
  own : ∀ entry ∈ entries, entry.2.status = .success → hub.HasRun entry.1 entry.2.output entry.2.auditRef
  /-- The successes of an idempotent tool for one call are the same. -/
  same : ∀ entry ∈ entries, ∀ entry' ∈ entries, entry.2.status = .success → entry'.2.status = .success →
    entry.1.Same entry'.1 → hub.idempotent entry.1.toolName = true →
      entry.2.output = entry'.2.output ∧ entry.2.auditRef = entry'.2.auditRef

/-! ## Keys -/

/-- The separators can be told apart from the trace id and the name. -/
structure Separable (call : ToolCall) : Prop where
  traceId : ':' ∉ call.traceId.toList
  toolName : ':' ∉ call.toolName.toList

theorem rawKey_toList (B : Builtins) (call : ToolCall) :
    (rawKey B call).toList =
      call.traceId.toList ++ ':' :: (call.toolName.toList ++ ':' :: (B.repr call.params).toList) := by
  simp only [rawKey, String.toList_append, List.append_assoc]
  rfl

/-- The text that the key is made of determines trace, tool and parameters. -/
theorem rawKey_inj {B : Builtins} {call call' : ToolCall} (hs : Separable call) (hs' : Separable call')
    (hrepr : B.repr call.params = B.repr call'.params → call.params = call'.params)
    (h : rawKey B call = rawKey B call') : call.written = call'.written := by
  have htexts := congrArg String.toList h
  rw [rawKey_toList, rawKey_toList] at htexts
  obtain ⟨htrace, hrest⟩ := separated_inj hs.traceId hs'.traceId htexts
  obtain ⟨hname, hparams⟩ := separated_inj hs.toolName hs'.toolName hrest
  rw [ToolCall.written, ToolCall.written, String.toList_injective htrace, String.toList_injective hname,
    hrepr (String.toList_injective hparams)]

/-- The keys of the calls tell them apart. -/
def Keyed (calls : List ToolCall) : Prop :=
  ∀ call ∈ calls, ∀ call' ∈ calls, call.idempotencyKey = call'.idempotencyKey ↔ call.written = call'.written

/-! ## What one call keeps -/

/-- The cache, the runs that returned and the actions so far agree. -/
structure Consistent (calls : List ToolCall) (hub : ToolHub ω) (entries : List (ToolCall × Action)) : Prop where
  accounted : Accounted hub
  records : Records hub.audit
  called : ∀ run ∈ hub.completions, run.call ∈ calls
  kept : ∀ call ∈ calls, ∀ result, hub.idempotencyCache.get? call.idempotencyKey = some result →
    hub.FromRun call result.output (some result.auditRef)
  own : ∀ entry ∈ entries, entry.2.status = .success → hub.FromRun entry.1 entry.2.output entry.2.auditRef
  cached : ∀ entry ∈ entries, entry.2.status = .success → hub.idempotent entry.1.toolName = true →
    ∃ result, hub.idempotencyCache.get? entry.1.idempotencyKey = some result ∧ entry.2.output = result.output ∧
      entry.2.auditRef = some result.auditRef

section Step

variable {calls : List ToolCall} {hub hub' : ToolHub ω} {entries : List (ToolCall × Action)} {call : ToolCall}
  {action : Action}

/-- A call in which no run returns, and whose action is a failure or the entry of
its key. -/
theorem Consistent.of_unchanged (h : Consistent calls hub entries) (ha : Accounted hub')
    (haudit : hub'.audit = hub.audit) (hruns : hub'.completions = hub.completions)
    (hregistry : hub'.registry = hub.registry) (hcache : hub'.idempotencyCache = hub.idempotencyCache)
    (hcall : call ∈ calls)
    (haction : action.status ≠ .success ∨ ∃ result, hub.idempotencyCache.get? call.idempotencyKey = some result ∧
      action.output = result.output ∧ action.auditRef = some result.auditRef) :
    Consistent calls hub' (entries ++ [(call, action)]) := by
  have hfrom : ∀ {call output auditRef}, hub.FromRun call output auditRef → hub'.FromRun call output auditRef :=
    fun hf => hf.mono (fun run hrun => hruns ▸ hrun) fun event hevent => haudit ▸ hevent
  refine ⟨ha, haudit ▸ h.records, fun run hrun => h.called run (hruns ▸ hrun), ?_, ?_, ?_⟩
  · intro call hcall result hresult
    rw [hcache] at hresult
    exact hfrom (h.kept call hcall result hresult)
  · intro entry hentry hsuccess
    obtain hentry | hentry := List.mem_append.1 hentry
    · exact hfrom (h.own entry hentry hsuccess)
    · obtain rfl := List.mem_singleton.1 hentry
      obtain hfailed | ⟨result, hresult, houtput, hauditRef⟩ := haction
      · exact absurd hsuccess hfailed
      · show hub'.FromRun call action.output action.auditRef
        rw [houtput, hauditRef]
        exact hfrom (h.kept call hcall result hresult)
  · intro entry hentry hsuccess hi
    rw [ToolHub.idempotent, hregistry] at hi
    rw [hcache]
    obtain hentry | hentry := List.mem_append.1 hentry
    · exact h.cached entry hentry hsuccess hi
    · obtain rfl := List.mem_singleton.1 hentry
      exact haction.elim (absurd hsuccess) id

/-- A call whose run returned and was recorded. -/
theorem Consistent.of_returned {tool : Tool ω} {output : Dict String Json} {auditRef : String}
    (hkeyed : Keyed calls) (h : Consistent calls hub entries) (hcall : call ∈ calls)
    (htool : hub.registry.get? call.toolName = some tool) (hcached : hub.cached tool call = none)
    (ha : Accounted hub') (haudit : Records hub'.audit)
    (hlog : hub'.audit.log = hub.audit.log ++ [⟨auditRef, (auditPayload call).eventType, auditPayload call⟩])
    (hruns : hub'.completions = hub.completions ++ [⟨call, call.injected, some output⟩])
    (hregistry : hub'.registry = hub.registry)
    (hcache : ∀ key, hub'.idempotencyCache.get? key =
      if tool.idempotent = true ∧ key = call.idempotencyKey then some (freshResult output auditRef)
      else hub.idempotencyCache.get? key) :
    Consistent calls hub' (entries ++ [(call, successAction call.toolName (freshResult output auditRef))]) := by
  have hfrom : ∀ {call output auditRef}, hub.FromRun call output auditRef → hub'.FromRun call output auditRef :=
    fun hf => hf.mono (fun run hrun => hruns ▸ List.mem_append_left _ hrun)
      fun event hevent => hlog ▸ List.mem_append_left _ hevent
  have hself : ∀ call' : ToolCall, call.written = call'.written → hub'.FromRun call' output (some auditRef) := by
    intro call' hwritten
    refine ⟨⟨call, call.injected, some output⟩, ?_, hwritten, rfl,
      ⟨auditRef, (auditPayload call).eventType, auditPayload call⟩, ?_, rfl, rfl⟩
    · rw [hruns]
      exact List.mem_append_right _ (List.mem_singleton_self _)
    · rw [hlog]
      exact List.mem_append_right _ (List.mem_singleton_self _)
  refine ⟨ha, haudit, ?_, ?_, ?_, ?_⟩
  · intro run hrun
    rw [hruns] at hrun
    obtain hrun | hrun := List.mem_append.1 hrun
    · exact h.called run hrun
    · exact List.mem_singleton.1 hrun ▸ hcall
  · intro call' hcall' result hresult
    rw [hcache] at hresult
    split at hresult
    · next hkey =>
      cases hresult
      exact hself call' ((hkeyed call hcall call' hcall').1 hkey.2.symm)
    · exact hfrom (h.kept call' hcall' result hresult)
  · intro entry hentry hsuccess
    obtain hentry | hentry := List.mem_append.1 hentry
    · exact hfrom (h.own entry hentry hsuccess)
    · obtain rfl := List.mem_singleton.1 hentry
      exact hself call rfl
  · intro entry hentry hsuccess hi
    rw [ToolHub.idempotent, hregistry] at hi
    rw [hcache]
    obtain hentry | hentry := List.mem_append.1 hentry
    · obtain ⟨result, hresult, hsame⟩ := h.cached entry hentry hsuccess hi
      -- the key of this call was not in the cache
      have hne : ¬ (tool.idempotent = true ∧ entry.1.idempotencyKey = call.idempotencyKey) := by
        rintro ⟨hidempotent, hkey⟩
        rw [ToolHub.cached, if_pos hidempotent, ← hkey, hresult] at hcached
        cases hcached
      exact ⟨result, by rw [if_neg hne, hresult], hsame⟩
    · obtain rfl := List.mem_singleton.1 hentry
      have hi : (hub.registry.get? call.toolName).any (·.idempotent) = true := hi
      rw [htool] at hi
      exact ⟨freshResult output auditRef, if_pos ⟨hi, rfl⟩, rfl, rfl⟩

/-- A call keeps the cache, the runs and the actions consistent. -/
theorem invoke_consistent (B : Builtins) (hkeyed : Keyed calls) (h : Consistent calls hub entries)
    (hcall : call ∈ calls) :
    Consistent calls (finalState (invoke B call hub)) (entries ++ [(call, answer call (invoke B call hub))]) := by
  have hlost : ¬ AuditLost hub call := by
    rintro ⟨tool, output, world, -, hraises, -⟩
    rw [h.records world] at hraises
    cases hraises
  have ha := (invoke_accounted_iff B call h.accounted).2 hlost
  have hinvoked := invoke_cases B hub call
  generalize invoke B call hub = r at ha hinvoked ⊢
  have hfailed : ∀ exc hub', (answer call (.error exc hub' : EStateM.Result Exc (ToolHub ω) ToolInvokeResult)).status ≠
      .success := by
    intro exc hub'
    rw [(answer_error call exc hub').2.1]
    decide
  cases hinvoked with
  | unregistered => exact h.of_unchanged ha rfl rfl rfl rfl hcall (.inl (hfailed _ _))
  | denied => exact h.of_unchanged ha rfl rfl rfl rfl hcall (.inl (hfailed _ _))
  | @hit tool entry htool hrole hcached =>
    refine h.of_unchanged ha rfl rfl rfl rfl hcall (.inr ⟨entry, ?_, rfl, rfl⟩)
    rw [ToolHub.cached] at hcached
    split at hcached
    · exact hcached
    · cases hcached
  | raised =>
    refine h.of_unchanged ha rfl ?_ rfl rfl hcall (.inl (hfailed _ _))
    simp [ToolHub.completions]
  | @unrecorded _ output world _ _ _ _ _ _ hrecord =>
    have hrecords : Records (hub.completed call output world).audit := h.records
    exact absurd hrecord (record_returns hrecords)
  | @returned tool output world auditRef hub₁ htool _ hcached _ hrecord =>
    obtain ⟨world', rfl⟩ := record_ok hrecord
    refine h.of_returned hkeyed hcall htool hcached ha ?_ ?_ ?_ ?_ fun key => ?_
    · rw [finalState_ok, keep_audit]
      exact h.records
    · rw [finalState_ok, keep_audit]
      rfl
    · rw [finalState_ok, ToolHub.completions, keep_runs]
      simp [logged, completed, ToolHub.completions]
    · rw [finalState_ok, keep_registry]
      rfl
    · rw [finalState_ok, keep_get?]
      rfl

/-- Calls one after the other keep them consistent. -/
theorem answers_consistent (B : Builtins) (hkeyed : Keyed calls) (h : Consistent calls hub entries)
    (made : List ToolCall) (hmade : ∀ call ∈ made, call ∈ calls) :
    Consistent calls (afterCalls B made hub) (entries ++ made.zip (answers B made hub)) := by
  induction made generalizing hub entries with
  | nil =>
    show Consistent calls hub (entries ++ [])
    rw [List.append_nil]
    exact h
  | cons call made ih =>
    have hstep := invoke_consistent B hkeyed h (hmade call (List.mem_cons_self ..))
    have hrest := ih hstep fun call hcall => hmade call (List.mem_cons_of_mem _ hcall)
    rw [List.append_assoc] at hrest
    exact hrest

theorem idempotent_of_mem {run : ToolRun} (h : run ∈ hub.idempotentCompletions) :
    run ∈ hub.completions ∧ hub.idempotent run.call.toolName = true := List.mem_filter.1 h

/-- What is consistent is idempotent exactly if no run of an idempotent tool returned
twice for one call. -/
theorem Consistent.idempotent_iff (hkeyed : Keyed calls) (h : Consistent calls hub entries)
    (hentries : ∀ entry ∈ entries, entry.1 ∈ calls) :
    Idempotent hub entries ↔ hub.idempotentCompletions.Pairwise fun run run' => ¬ run.call.Same run'.call := by
  refine ⟨Idempotent.once, fun honce => ⟨honce, fun entry hentry hsuccess => (h.own entry hentry hsuccess).hasRun, ?_⟩⟩
  intro entry hentry entry' hentry' hsuccess hsuccess' hsame hi
  have hi' : hub.idempotent entry'.1.toolName = true := hsame.toolName ▸ hi
  obtain ⟨run, hrun, hwritten, -⟩ := h.own entry hentry hsuccess
  obtain ⟨run', hrun', hwritten', -⟩ := h.own entry' hentry' hsuccess'
  obtain ⟨htrace, hname, hparams⟩ := ToolCall.written_inj hwritten
  obtain ⟨htrace', hname', hparams'⟩ := ToolCall.written_inj hwritten'
  have hmem : run ∈ hub.idempotentCompletions := List.mem_filter.2 ⟨hrun, hname ▸ hi⟩
  have hmem' : run' ∈ hub.idempotentCompletions := List.mem_filter.2 ⟨hrun', hname' ▸ hi'⟩
  -- the runs of both successes are one, so their calls have one key
  have hruns : run.call.Same run'.call :=
    ⟨htrace.trans (hsame.traceId.trans htrace'.symm), hname.trans (hsame.toolName.trans hname'.symm),
      hparams ▸ hparams' ▸ hsame.params⟩
  have hone : run = run' := by
    by_contra hne
    have hsymm : Std.Symm fun run run' : ToolRun => ¬ run.call.Same run'.call := ⟨fun _ _ hno hyes => hno hyes.symm⟩
    exact honce.forall hmem hmem' hne hruns
  have hkey : entry.1.idempotencyKey = entry'.1.idempotencyKey :=
    (hkeyed _ (hentries entry hentry) _ (hentries entry' hentry')).2 (hwritten.symm.trans (hone ▸ hwritten'))
  obtain ⟨result, hresult, houtput, hauditRef⟩ := h.cached entry hentry hsuccess hi
  obtain ⟨result', hresult', houtput', hauditRef'⟩ := h.cached entry' hentry' hsuccess' hi'
  rw [hkey, hresult', Option.some.injEq] at hresult
  subst hresult
  exact ⟨houtput.trans houtput'.symm, hauditRef.trans hauditRef'.symm⟩

/-- A call keeps the runs of idempotent tools apart exactly if it does not run one
again for rewritten parameters. -/
theorem once_invoke_iff (B : Builtins) (hkeyed : Keyed calls) (h : Consistent calls hub entries) (hcall : call ∈ calls) :
    ((finalState (invoke B call hub)).idempotentCompletions.Pairwise fun run run' => ¬ run.call.Same run'.call) ↔
      (hub.idempotentCompletions.Pairwise fun run run' => ¬ run.call.Same run'.call) ∧ ¬ hub.Rewritten call := by
  obtain ⟨hnone, huncounted⟩ | ⟨tool, output, world, hsome, hcached, htool, hcounted⟩ :=
    counts_of_invoked (invoke_cases B hub call)
  · have hsame : (finalState (invoke B call hub)).idempotentCompletions = hub.idempotentCompletions := by
      unfold idempotentCompletions ToolHub.idempotent
      rw [huncounted.completions, huncounted.registry]
    rw [hsame]
    refine (and_iff_left ?_).symm
    rintro ⟨⟨tool, output, world, hsome, -⟩, -⟩
    rw [hnone] at hsome
    cases hsome
  · have hidempotent : hub.idempotent call.toolName = tool.idempotent := by rw [ToolHub.idempotent, htool]; rfl
    have hruns : (finalState (invoke B call hub)).idempotentCompletions = hub.idempotentCompletions ++
        if tool.idempotent then [⟨call, call.injected, some output⟩] else [] := by
      unfold idempotentCompletions
      rw [hcounted.completions, List.filter_append]
      unfold ToolHub.idempotent
      rw [hcounted.registry]
      rw [List.filter_singleton, show Option.any (·.idempotent) (hub.registry.get? call.toolName) = _ from hidempotent]
      cases tool.idempotent <;> rfl
    rw [hruns]
    cases hi : tool.idempotent with
    | false =>
      simp only [Bool.false_eq_true, ↓reduceIte, List.append_nil]
      refine (and_iff_left ?_).symm
      rintro ⟨⟨tool', output', world', hsome', hi'⟩, -⟩
      rw [hsome] at hsome'
      cases hsome'
      rw [hi] at hi'
      cases hi'
    | true =>
      simp only [↓reduceIte, List.pairwise_append, List.pairwise_singleton, List.mem_singleton, forall_eq, true_and]
      refine and_congr_right fun _ => ⟨?_, ?_⟩
      · rintro hdistinct ⟨-, run, hrun, hsame, -⟩
        have hmem : hub.idempotent run.call.toolName = true := hsame.toolName ▸ hidempotent.trans hi
        exact hdistinct run (List.mem_filter.2 ⟨hrun, hmem⟩) hsame
      · intro hrewritten run hrun hsame
        obtain ⟨hmem, hmemi⟩ := idempotent_of_mem hrun
        refine hrewritten ⟨⟨tool, output, world, hsome, hi⟩, run, hmem, hsame, fun hparams => ?_⟩
        -- a call written alike finds its key in the cache
        have hkey := (hkeyed _ (h.called run hmem) _ hcall).2 (hsame.written hparams)
        have hkept := h.accounted.kept run hmem hmemi
        rw [ToolHub.cached, if_pos hi, ← hkey] at hcached
        rw [hcached] at hkept
        cases hkept

/-- Calls keep them apart exactly if none of them runs one again. -/
theorem once_afterCalls_iff (B : Builtins) (hkeyed : Keyed calls) (h : Consistent calls hub entries)
    (made : List ToolCall) (hmade : ∀ call ∈ made, call ∈ calls) :
    ((afterCalls B made hub).idempotentCompletions.Pairwise fun run run' => ¬ run.call.Same run'.call) ↔
      (hub.idempotentCompletions.Pairwise fun run run' => ¬ run.call.Same run'.call) ∧
        ∀ before call, before ++ [call] <+: made → ¬ (afterCalls B before hub).Rewritten call := by
  induction made using List.reverseRecOn with
  | nil =>
    refine (and_iff_left fun before call hpre => ?_).symm
    have hlength := hpre.length_le
    simp at hlength
  | append_singleton made call ih =>
    have hbefore : ∀ call ∈ made, call ∈ calls := fun call hcall => hmade call (List.mem_append_left _ hcall)
    have hconsistent := answers_consistent B hkeyed h made hbefore
    have hlast : call ∈ calls := hmade call (List.mem_append_right _ (List.mem_singleton_self call))
    have hafter : afterCalls B (made ++ [call]) hub = finalState (invoke B call (afterCalls B made hub)) :=
      List.foldl_concat ..
    rw [hafter, once_invoke_iff B hkeyed hconsistent hlast, ih hbefore, and_assoc]
    refine and_congr_right fun _ => ⟨?_, fun hall => ⟨fun before call' hpre => ?_, hall made call List.prefix_rfl⟩⟩
    · rintro ⟨hmadeOnce, hcallOnce⟩ before call' hpre
      rcases List.prefix_concat_iff.1 hpre with heq | hpre
      · obtain ⟨rfl, hsingle⟩ := List.append_inj' heq rfl
        obtain rfl := List.singleton_inj.1 hsingle
        exact hcallOnce
      · exact hmadeOnce before call' hpre
    · exact hall before call' (hpre.trans (List.prefix_append ..))

end Step

/-! ## Sessions -/

variable {B : Builtins}

theorem length_answers (B : Builtins) (calls : List ToolCall) (hub : ToolHub ω) :
    (answers B calls hub).length = calls.length := by
  induction calls generalizing hub with
  | nil => rfl
  | cons call calls ih => simp [answers, ih]

theorem answers_append (B : Builtins) (calls calls' : List ToolCall) (hub : ToolHub ω) :
    answers B (calls ++ calls') hub = answers B calls hub ++ answers B calls' (afterCalls B calls hub) := by
  induction calls generalizing hub with
  | nil => rfl
  | cons call calls ih =>
    show answer call (invoke B call hub) :: answers B (calls ++ calls') _ = _
    rw [ih]
    rfl

theorem afterCalls_append (B : Builtins) (calls calls' : List ToolCall) (hub : ToolHub ω) :
    afterCalls B (calls ++ calls') hub = afterCalls B calls' (afterCalls B calls hub) := List.foldl_append

/-- An execution whose overrides are merged makes its calls. -/
theorem run_eq (e : Execution) (hnone : (callsOf B e.context e.steps).2 = none) (hub : ToolHub ω) :
    ∃ actions, e.run B hub = .ok actions (afterCalls B (e.calls B) hub) ∧
      (e.calls B).zip actions = (e.calls B).zip (answers B (e.calls B) hub) ∧
      (e.context.policy.autoExecute = true → actions.length = (e.calls B).length) := by
  unfold Execution.run Execution.calls
  cases hauto : e.context.policy.autoExecute with
  | false =>
    unfold execute
    simp only [hauto, Bool.false_eq_true, ↓reduceIte]
    exact ⟨_, rfl, rfl, fun h => nomatch h⟩
  | true =>
    rw [execute_eq B e.context e.steps hub hauto, hnone]
    exact ⟨_, rfl, rfl, fun _ => length_answers ..⟩

/-- A session makes the calls of its executions. -/
theorem session_eq (executions : List Execution)
    (hnone : ∀ e ∈ executions, (callsOf B e.context e.steps).2 = none) (hub : ToolHub ω) :
    ∃ actions, session B executions hub = .ok actions (afterCalls B (executions.flatMap (Execution.calls B)) hub) ∧
      entries B executions actions = (executions.flatMap (Execution.calls B)).zip
        (answers B (executions.flatMap (Execution.calls B)) hub) ∧
      List.Forall₂ (fun e actions => e.context.policy.autoExecute = true → actions.length = (e.calls B).length)
        executions actions := by
  induction executions generalizing hub with
  | nil => exact ⟨[], rfl, rfl, .nil⟩
  | cons e executions ih =>
    obtain ⟨actions, hrun, hzip, hlength⟩ := run_eq e (hnone e (List.mem_cons_self ..)) hub
    obtain ⟨rest, hsession, hentries, hlengths⟩ :=
      ih (fun e he => hnone e (List.mem_cons_of_mem _ he)) (afterCalls B (e.calls B) hub)
    refine ⟨actions :: rest, ?_, ?_, .cons hlength hlengths⟩
    · have hcons : session B (e :: executions) = (e.run B >>= fun actions => session B executions >>= fun rest =>
          pure (actions :: rest) : EStateM Exc (ToolHub ω) _) := List.mapM_cons
      rw [hcons, bind_ok hrun, bind_ok hsession, List.flatMap_cons, afterCalls_append]
      rfl
    · have hcons : entries B (e :: executions) (actions :: rest) =
          (e.calls B).zip actions ++ entries B executions rest := rfl
      rw [hcons, hzip, hentries, List.flatMap_cons, answers_append, List.zip_append (length_answers ..).symm]

/-- The calls of an execution have its trace id, the name of one of its steps,
and the key of their own text. -/
theorem mem_calls {e : Execution} {call : ToolCall} (h : call ∈ e.calls B) :
    call.traceId = e.context.traceId ∧ call.toolName ∈ toolNamesOf e.steps ∧
      call.idempotencyKey = B.sha1 (rawKey B call) := by
  unfold Execution.calls at h
  split at h
  · obtain ⟨toolName, planned, pairs, hstep, -, rfl⟩ := mem_callsOf B e.context h
    exact ⟨rfl, List.mem_filterMap.2 ⟨_, hstep, rfl⟩, rfl⟩
  · cases h

/-- The hash and the texts of the parameters tell the calls apart. -/
structure Collisionless (B : Builtins) (calls : List ToolCall) : Prop where
  sha1 : ∀ call ∈ calls, ∀ call' ∈ calls,
    B.sha1 (rawKey B call) = B.sha1 (rawKey B call') → rawKey B call = rawKey B call'
  repr : ∀ call ∈ calls, ∀ call' ∈ calls, B.repr call.params = B.repr call'.params → call.params = call'.params

theorem keyed_of_separable {calls : List ToolCall} (hc : Collisionless B calls)
    (hs : ∀ call ∈ calls, Separable call) (hkeys : ∀ call ∈ calls, call.idempotencyKey = B.sha1 (rawKey B call)) :
    Keyed calls := by
  intro call hcall call' hcall'
  rw [hkeys call hcall, hkeys call' hcall']
  constructor
  · intro hkey
    exact rawKey_inj (hs call hcall) (hs call' hcall') (hc.repr call hcall call' hcall')
      (hc.sha1 call hcall call' hcall' hkey)
  · intro hwritten
    obtain ⟨htrace, hname, hparams⟩ := ToolCall.written_inj hwritten
    rw [rawKey, rawKey, htrace, hname, hparams]

theorem fresh_consistent {registry : Dict String (Tool ω)} {uuid4 : EStateM Exc ω String}
    {append : EStateM Exc ω (Fault Exc)} {world : ω} (hrecords : Records (fresh registry uuid4 append world).audit)
    (calls : List ToolCall) : Consistent calls (fresh registry uuid4 append world) [] where
  accounted := fresh_accounted registry uuid4 append world
  records := hrecords
  called _ hrun := nomatch hrun
  kept _ _ _ hresult := nomatch hresult
  own _ hentry := nomatch hentry
  cached _ hentry := nomatch hentry

/-- The keys of a session tell its calls apart. -/
theorem session_keyed {executions : List Execution}
    (hseparable : ∀ e ∈ executions, ':' ∉ e.context.traceId.toList ∧
      ∀ toolName ∈ toolNamesOf e.steps, ':' ∉ toolName.toList)
    (hcollisionless : Collisionless B (executions.flatMap (Execution.calls B))) :
    Keyed (executions.flatMap (Execution.calls B)) := by
  have hcalls : ∀ call ∈ executions.flatMap (Execution.calls B),
      Separable call ∧ call.idempotencyKey = B.sha1 (rawKey B call) := by
    intro call hcall
    obtain ⟨e, he, hcall⟩ := List.mem_flatMap.1 hcall
    obtain ⟨htrace, hname, hkey⟩ := mem_calls hcall
    obtain ⟨hcolon, hcolons⟩ := hseparable e he
    exact ⟨⟨htrace ▸ hcolon, hcolons _ hname⟩, hkey⟩
  exact keyed_of_separable hcollisionless (fun call hcall => (hcalls call hcall).1) fun call hcall => (hcalls call hcall).2

/-- Nothing is rewritten in a session that writes equal parameters alike. -/
theorem not_rewritten {registry : Dict String (Tool ω)} {uuid4 : EStateM Exc ω String} {append : EStateM Exc ω (Fault Exc)}
    {world : ω} {calls : List ToolCall} (hrecords : Records (fresh registry uuid4 append world).audit)
    (hkeyed : Keyed calls) (hwritten : ∀ call ∈ calls, ∀ call' ∈ calls, call.Same call' → call.params = call'.params)
    (before : List ToolCall) (call : ToolCall) (hpre : before ++ [call] <+: calls) :
    ¬ (afterCalls B before (fresh registry uuid4 append world)).Rewritten call := by
  rintro ⟨-, run, hrun, hsame, hne⟩
  have hbefore : ∀ call ∈ before, call ∈ calls := fun _ hcall => hpre.subset (List.mem_append_left _ hcall)
  have hconsistent := answers_consistent B hkeyed (fresh_consistent hrecords calls) before hbefore
  have hcall : call ∈ calls := hpre.subset (List.mem_append_right _ (List.mem_singleton_self call))
  exact hne (hwritten _ (hconsistent.called run hrun) _ hcall hsame)

/-- Over every sequence of executions on a new hub that records every event,
whose trace ids and tool names have no separator and whose overrides are
objects: all of them return. A run of an idempotent tool returns at most once for
each trace, tool and parameters, and each success has the output of a run of its own
call, the same one each time for an idempotent tool, exactly if no call runs such a
tool again for parameters that were written differently before; so it is if all calls
write equal parameters alike. -/
theorem session_idempotent_iff (B : Builtins) (registry : Dict String (Tool ω)) (uuid4 : EStateM Exc ω String)
    (append : EStateM Exc ω (Fault Exc)) (world : ω) (executions : List Execution)
    (hrecords : Records (fresh registry uuid4 append world).audit)
    (hseparable : ∀ e ∈ executions, ':' ∉ e.context.traceId.toList ∧
      ∀ toolName ∈ toolNamesOf e.steps, ':' ∉ toolName.toList)
    (hoverrides : ∀ e ∈ executions, ∀ toolName ∈ toolNamesOf e.steps,
      ∃ fields, overrideOf e.context toolName = .obj fields)
    (hcollisionless : Collisionless B (executions.flatMap (Execution.calls B))) :
    ∃ actions hub, session B executions (fresh registry uuid4 append world) = .ok actions hub ∧
      List.Forall₂ (fun e actions => e.context.policy.autoExecute = true → actions.length = (e.calls B).length)
        executions actions ∧
      (Idempotent hub (entries B executions actions) ↔
        ∀ before call, before ++ [call] <+: executions.flatMap (Execution.calls B) →
          ¬ (afterCalls B before (fresh registry uuid4 append world)).Rewritten call) ∧
      ((∀ call ∈ executions.flatMap (Execution.calls B), ∀ call' ∈ executions.flatMap (Execution.calls B),
        call.Same call' → call.params = call'.params) → Idempotent hub (entries B executions actions)) := by
  have hnone : ∀ e ∈ executions, (callsOf B e.context e.steps).2 = none := by
    intro e he
    refine (callsOf_none_iff B e.context e.steps).2 fun toolName hname => ?_
    obtain ⟨fields, hfields⟩ := hoverrides e he toolName hname
    exact ⟨_, by rw [hfields]; rfl⟩
  have hkeyed := session_keyed hseparable hcollisionless
  have hfresh := fresh_consistent hrecords (executions.flatMap (Execution.calls B))
  obtain ⟨actions, hsession, hentries, hlengths⟩ := session_eq executions hnone (fresh registry uuid4 append world)
  have hconsistent := answers_consistent B hkeyed hfresh _ fun call hcall => hcall
  rw [List.nil_append, ← hentries] at hconsistent
  have hcalled : ∀ entry ∈ entries B executions actions, entry.1 ∈ executions.flatMap (Execution.calls B) := by
    intro entry hentry
    rw [hentries] at hentry
    exact (List.of_mem_zip hentry).1
  have hidempotent : Idempotent (afterCalls B (executions.flatMap (Execution.calls B)) (fresh registry uuid4 append world))
      (entries B executions actions) ↔
      ∀ before call, before ++ [call] <+: executions.flatMap (Execution.calls B) →
        ¬ (afterCalls B before (fresh registry uuid4 append world)).Rewritten call := by
    rw [hconsistent.idempotent_iff hkeyed hcalled, once_afterCalls_iff B hkeyed hfresh _ fun call hcall => hcall]
    exact and_iff_right .nil
  exact ⟨actions, _, hsession, hlengths, hidempotent, fun halike => hidempotent.2 (not_rewritten hrecords hkeyed halike)⟩

/-! ## One email twice -/

/-- The email of a plan. -/
def mailStep : Step := .tool "send_email" (Dict.empty.update
  [(.str "to", .str "unknown@company.com"), (.str "subject", .str "Automated message")])

/-- The email is sent twice in one request, and once more in another. -/
def mailSession : List Execution :=
  [⟨[mailStep, mailStep], mailContext []⟩, ⟨[mailStep], { mailContext [] with traceId := "trace-2" }⟩]

/-- `repr` of an entry that is a text. -/
def reprEntry : Key × Json → String
  | (.str key, .str value) => "'" ++ key ++ "': '" ++ value ++ "'"
  | _ => ""

/-- The functions of the language on the texts of the two sessions. -/
def sessionBuiltins : Builtins :=
  { mailBuiltins with
    repr := fun params => "\x7b" ++ ", ".intercalate (params.entries.map reprEntry) ++ "\x7d"
    sha1 := fun text =>
      if text = "trace-2:send_email:\x7b'to': 'unknown@company.com', 'subject': 'Automated message'\x7d" then
        "2b0b719ca6478da777b6fb07bb53391f185f925a"
      else if text = "trace-1:send_email:\x7b'subject': 'Automated message', 'to': 'unknown@company.com'\x7d" then
        "bc36327c334053b75491c95975b28eac76e14170"
      else mailBuiltins.sha1 text }

theorem mailSession_separable :
    ∀ e ∈ mailSession, ':' ∉ e.context.traceId.toList ∧ ∀ toolName ∈ toolNamesOf e.steps, ':' ∉ toolName.toList := by
  decide

theorem mailSession_collisionless :
    Collisionless sessionBuiltins (mailSession.flatMap (Execution.calls sessionBuiltins)) :=
  ⟨by decide, by decide⟩

theorem email_session_idempotent :
    ∃ actions hub, session sessionBuiltins mailSession mailHub = .ok actions hub ∧
      List.Forall₂ (fun e actions => e.context.policy.autoExecute = true →
        actions.length = (e.calls sessionBuiltins).length) mailSession actions ∧
      Idempotent hub (entries sessionBuiltins mailSession actions) := by
  obtain ⟨actions, hub, hsession, hlengths, -, hidempotent⟩ := session_idempotent_iff sessionBuiltins
    (Dict.empty.set "send_email" sendEmailTool) (pure "event-1") (pure .none) () mailSession (fun _ => rfl)
    mailSession_separable (fun e he toolName _ => by
      obtain rfl | rfl : e = ⟨[mailStep, mailStep], mailContext []⟩ ∨
          e = ⟨[mailStep], { mailContext [] with traceId := "trace-2" }⟩ := by simpa [mailSession] using he
      · exact ⟨[], rfl⟩
      · exact ⟨[], rfl⟩) mailSession_collisionless
  have halike : ∀ call ∈ mailSession.flatMap (Execution.calls sessionBuiltins),
      ∀ call' ∈ mailSession.flatMap (Execution.calls sessionBuiltins), call.params = call'.params := by decide
  exact ⟨actions, hub, hsession, hlengths, hidempotent fun call hcall call' hcall' _ => halike call hcall call' hcall'⟩

/-- The second email of the first request is not sent. -/
example : ((finalState (session sessionBuiltins mailSession mailHub)).completions.map (·.call.traceId)) =
    ["trace-1", "trace-2"] := by
  decide

/-- Two steps of one request, one with the address and one with the subject, and an
override with both. -/
def reorderedSession : List Execution :=
  [⟨[.tool "send_email" (Dict.empty.set (.str "to") (.str "bob@company.com")),
      .tool "send_email" (Dict.empty.set (.str "subject") (.str "Hello"))],
    mailContext [("send_email", .obj [("to", .str "unknown@company.com"), ("subject", .str "Automated message")])]⟩]

/-- Merging gives one dictionary in two orders, and the email is sent for both. -/
theorem email_reordered :
    (∀ e ∈ reorderedSession, ':' ∉ e.context.traceId.toList ∧ ∀ toolName ∈ toolNamesOf e.steps, ':' ∉ toolName.toList) ∧
      (∀ e ∈ reorderedSession, ∀ toolName ∈ toolNamesOf e.steps, ∃ fields, overrideOf e.context toolName = .obj fields) ∧
      Collisionless sessionBuiltins (reorderedSession.flatMap (Execution.calls sessionBuiltins)) ∧
      ∃ actions hub, session sessionBuiltins reorderedSession mailHub = .ok actions hub ∧
        (∃ run run', hub.idempotentCompletions = [run, run'] ∧ run.call.Same run'.call) ∧
        ¬ Idempotent hub (entries sessionBuiltins reorderedSession actions) := by
  have hruns : ∃ actions hub, session sessionBuiltins reorderedSession mailHub = .ok actions hub ∧
      ∃ run run', hub.idempotentCompletions = [run, run'] ∧ run.call.traceId = run'.call.traceId ∧
        run.call.toolName = run'.call.toolName ∧ run.call.params.entries.Perm run'.call.params.entries :=
    ⟨_, _, rfl, _, _, rfl, rfl, rfl, .swap ..⟩
  obtain ⟨actions, hub, hsession, run, run', hcompletions, htrace, hname, hperm⟩ := hruns
  have hsame : run.call.Same run'.call := ⟨htrace, hname, .of_perm hperm⟩
  have hoverrides : ∀ e ∈ reorderedSession, ∀ toolName ∈ toolNamesOf e.steps,
      ∃ fields, overrideOf e.context toolName = .obj fields := by
    intro e he toolName hname
    obtain rfl := List.mem_singleton.1 he
    obtain rfl : toolName = "send_email" := by simpa [toolNamesOf] using hname
    exact ⟨_, rfl⟩
  refine ⟨by decide, hoverrides, ⟨by decide, by decide⟩, actions, hub, hsession, ⟨run, run', hcompletions, hsame⟩,
    fun h => ?_⟩
  have honce := h.once
  rw [hcompletions, List.pairwise_pair] at honce
  exact honce hsame

end ExecutorAgent

end Ochestrate
