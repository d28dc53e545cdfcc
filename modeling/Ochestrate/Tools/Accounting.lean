import Ochestrate.Framework.Machine
import Ochestrate.Tools.Hub

/-!
# Runs, counters, audit events and cached keys

A call that runs a tool makes four updates one after the other: the run itself,
the `tool.success` counter, the audit event and the cache entry. `Accounted`
says that they agree, and `accounted_iff` that they do after every call of a
history exactly if no call loses its event (`AuditLost`): the run returned, and
then the audit log could not be written. After that an idempotent tool has run
and its key is not in the cache, so a retry runs it again (`completed_twice`).
-/

namespace Ochestrate

open ToolHub

variable {ω : Type}

namespace ToolHub

/-- A hub without history. -/
def fresh (registry : Dict String (Tool ω)) (uuid4 : EStateM Exc ω String) (append : EStateM Exc ω (Fault Exc))
    (world : ω) : ToolHub ω where
  registry := registry
  audit := { uuid4, append }
  world := world

/-- The runs that returned. -/
def completions (hub : ToolHub ω) : List ToolRun := hub.runs.filter (·.output.isSome)

/-- The number of audit events of a type. -/
def eventCount (hub : ToolHub ω) (eventType : String) : Nat := hub.audit.log.countP (·.eventType = eventType)

/-- The tool that is registered under the name is declared idempotent. -/
def idempotent (hub : ToolHub ω) (toolName : String) : Bool := (hub.registry.get? toolName).any (·.idempotent)

end ToolHub

/-- Calls of `invoke` on one hub, whether they return or raise. -/
def invokeMachine (B : Builtins) : Machine (ToolHub ω) ToolCall where
  step hub call := some (finalState (invoke B call hub))

/-- Each run that returned is counted and has its event, and those of
idempotent tools have their keys in the cache, none twice. -/
structure Accounted (hub : ToolHub ω) : Prop where
  successes : hub.metrics.count "tool.success" = hub.completions.length
  events : hub.eventCount "tool_invoke" = hub.completions.length
  kept : ∀ run ∈ hub.completions, hub.idempotent run.call.toolName = true →
    (hub.idempotencyCache.get? run.call.idempotencyKey).isSome
  once : hub.completions.Pairwise fun run run' => run.call.toolName = run'.call.toolName →
    hub.idempotent run.call.toolName = true → run.call.idempotencyKey ≠ run'.call.idempotencyKey

/-- The tool's run returns and recording it raises, before the event is in the
log, or with an idempotent tool's result not yet in the cache. -/
def AuditLost (hub : ToolHub ω) (call : ToolCall) : Prop :=
  ∃ tool output world, hub.completion call = some (tool, output, world) ∧
    (hub.audit.fault world).raises = true ∧ (tool.idempotent = true ∨ (hub.audit.fault world).takesEffect = false)

/-! ## What one call counts -/

/-- A call in which no run returns leaves the accounts as they are. -/
structure Uncounted (hub hub' : ToolHub ω) : Prop where
  registry : hub'.registry = hub.registry
  completions : hub'.completions = hub.completions
  successes : hub'.metrics.count "tool.success" = hub.metrics.count "tool.success"
  log : hub'.audit.log = hub.audit.log
  cache : hub'.idempotencyCache = hub.idempotencyCache

/-- A call in which a run returns, by how recording it goes. -/
structure Counted (hub hub' : ToolHub ω) (tool : Tool ω) (call : ToolCall) (output : Dict String Json)
    (fault : Fault Exc) : Prop where
  registry : hub'.registry = hub.registry
  completions : hub'.completions = hub.completions ++ [⟨call, call.injected, some output⟩]
  successes : hub'.metrics.count "tool.success" = hub.metrics.count "tool.success" + 1
  events : hub'.eventCount "tool_invoke" = hub.eventCount "tool_invoke" + if fault.takesEffect then 1 else 0
  keys : ∀ key, (hub'.idempotencyCache.get? key).isSome ↔ (hub.idempotencyCache.get? key).isSome ∨
    key = call.idempotencyKey ∧ tool.idempotent = true ∧ fault.raises = false

variable {hub hub' : ToolHub ω} {call : ToolCall}

theorem Uncounted.of_inc {metricName : String} (h : "tool.success" ≠ metricName) :
    Uncounted hub { hub with metrics := hub.metrics.inc metricName } where
  registry := rfl
  completions := rfl
  successes := by rw [MetricsRegistry.count_inc, if_neg h, Nat.add_zero]
  log := rfl
  cache := rfl

section Record

variable {tool : Tool ω} {output : Dict String Json} {world : ω} {fault : Fault Exc} {hub₁ : ToolHub ω}

/-- The event of the run is in the log or not. -/
theorem eventCount_of_recorded (h : Recorded (auditPayload call) fault (hub.completed call output world) hub₁) :
    hub₁.eventCount "tool_invoke" = hub.eventCount "tool_invoke" + if fault.takesEffect then 1 else 0 := by
  obtain ⟨eventId, hlog⟩ := h.log
  rw [eventCount, hlog, List.countP_append]
  cases fault.takesEffect <;> rfl

/-- The run returned and recording it raised: its result is not kept. -/
theorem Counted.of_error (h : Recorded (auditPayload call) fault (hub.completed call output world) hub₁)
    (hf : fault.raises = true) : Counted hub hub₁ tool call output fault where
  registry := h.registry
  completions := by simp [ToolHub.completions, h.runs, completed]
  successes := by rw [h.metrics, completed, MetricsRegistry.count_inc, if_pos rfl]
  events := eventCount_of_recorded h
  keys key := by rw [h.cache, hf]; simp [completed]

/-- The run returned and is recorded: its result is kept if the tool is
idempotent. -/
theorem Counted.of_ok (h : Recorded (auditPayload call) fault (hub.completed call output world) hub₁)
    (hf : fault.raises = false) (result : ToolInvokeResult) :
    Counted hub (hub₁.keep tool call result) tool call output fault where
  registry := by rw [keep_registry, h.registry]; rfl
  completions := by simp [ToolHub.completions, h.runs, completed]
  successes := by rw [keep_metrics, h.metrics, completed, MetricsRegistry.count_inc, if_pos rfl]
  events := by
    rw [eventCount, keep_audit]
    exact eventCount_of_recorded h
  keys key := by
    rw [keep_get?, h.cache]
    by_cases hkey : tool.idempotent = true ∧ key = call.idempotencyKey
    · simp [hkey, hf]
    · rw [if_neg hkey]
      exact ⟨.inl, fun hor => hor.elim id fun ⟨hk, hi, _⟩ => absurd ⟨hi, hk⟩ hkey⟩

end Record

/-- One call counts nothing or one run. -/
theorem counts_of_invoked {r : EStateM.Result Exc (ToolHub ω) ToolInvokeResult} (h : Invoked hub call r) :
    (hub.completion call = none ∧ Uncounted hub (finalState r)) ∨
      ∃ tool output world, hub.completion call = some (tool, output, world) ∧ hub.cached tool call = none ∧
        hub.registry.get? call.toolName = some tool ∧
        Counted hub (finalState r) tool call output (hub.audit.fault world) := by
  cases h with
  | unregistered htool =>
    have hnone : hub.completion call = none := by simp only [completion, htool]
    exact .inl ⟨hnone, rfl, rfl, rfl, rfl, rfl⟩
  | denied htool hrole => exact .inl ⟨completion_none htool (.inl hrole), Uncounted.of_inc (by decide)⟩
  | hit htool hrole hcached =>
    exact .inl ⟨completion_none htool (.inr (.inl (by simp [hcached]))), Uncounted.of_inc (by decide)⟩
  | raised htool hrole hcached hrun =>
    refine .inl ⟨completion_none htool (.inr (.inr ⟨_, _, hrun⟩)), rfl, ?_, rfl, rfl, rfl⟩
    simp [ToolHub.completions]
  | unrecorded htool hrole hcached hrun hrecord =>
    obtain ⟨hf, hrecorded⟩ := recorded_error hrecord
    exact .inr ⟨_, _, _, completion_some htool hrole hcached hrun, hcached, htool, Counted.of_error hrecorded hf⟩
  | returned htool hrole hcached hrun hrecord =>
    obtain ⟨hf, hrecorded⟩ := recorded_ok hrecord
    exact .inr ⟨_, _, _, completion_some htool hrole hcached hrun, hcached, htool, Counted.of_ok hrecorded hf _⟩

/-! ## Histories -/

theorem Accounted.of_uncounted (h : Uncounted hub hub') (ha : Accounted hub) : Accounted hub' where
  successes := by rw [h.successes, h.completions, ha.successes]
  events := by rw [eventCount, h.log, h.completions]; exact ha.events
  kept run hrun hi := by
    rw [h.completions] at hrun
    rw [ToolHub.idempotent, h.registry] at hi
    rw [h.cache]
    exact ha.kept run hrun hi
  once := by
    rw [h.completions]
    refine ha.once.imp fun {run run'} hdistinct hname hi => hdistinct hname ?_
    rw [ToolHub.idempotent, h.registry] at hi
    exact hi

/-- A run that returns keeps the accounts exactly if its event is recorded and,
for an idempotent tool, its result kept. -/
theorem Counted.accounts_iff {tool : Tool ω} {output : Dict String Json} {fault : Fault Exc}
    (htool : hub.registry.get? call.toolName = some tool) (hcached : hub.cached tool call = none)
    (h : Counted hub hub' tool call output fault) (ha : Accounted hub) :
    Accounted hub' ↔ fault.takesEffect = true ∧ (tool.idempotent = true → fault.raises = false) := by
  have hidempotent : ∀ toolName, hub'.idempotent toolName = hub.idempotent toolName := fun toolName => by
    rw [ToolHub.idempotent, h.registry]; rfl
  have hself : hub.idempotent call.toolName = tool.idempotent := by rw [ToolHub.idempotent, htool]; rfl
  -- the key of a run that was let through was not in the cache
  have hkey : tool.idempotent = true → hub.idempotencyCache.get? call.idempotencyKey = none := fun hi => by
    rw [cached, if_pos hi] at hcached
    exact hcached
  have hlength : hub'.completions.length = hub.completions.length + 1 := by
    rw [h.completions, List.length_append]; rfl
  constructor
  · intro ha'
    refine ⟨?_, fun hi => ?_⟩
    · have hevents := ha'.events
      rw [hlength, h.events, ha.events] at hevents
      cases he : fault.takesEffect with
      | true => rfl
      | false => rw [he] at hevents; simp at hevents
    · have hrun : ⟨call, call.injected, some output⟩ ∈ hub'.completions := by rw [h.completions]; simp
      have hkept := ha'.kept _ hrun (by rw [hidempotent, hself, hi])
      rw [h.keys, hkey hi] at hkept
      exact hkept.elim (fun hno => nomatch hno) fun ⟨_, _, hraises⟩ => hraises
  · rintro ⟨he, hraises⟩
    refine ⟨?_, ?_, fun run hrun hi => ?_, ?_⟩
    · rw [h.successes, ha.successes, hlength]
    · rw [h.events, ha.events, hlength, he]; rfl
    · rw [hidempotent] at hi
      rw [h.keys]
      rw [h.completions, List.mem_append, List.mem_singleton] at hrun
      obtain hrun | rfl := hrun
      · exact .inl (ha.kept run hrun hi)
      · rw [hself] at hi
        exact .inr ⟨rfl, hi, hraises hi⟩
    · rw [h.completions, List.pairwise_append]
      refine ⟨ha.once.imp fun {run run'} hdistinct hname hi => hdistinct hname (hidempotent _ ▸ hi),
        List.pairwise_singleton _ _, fun run hrun run' hrun' hname hi hk => ?_⟩
      rw [List.mem_singleton] at hrun'
      subst hrun'
      rw [hidempotent] at hi
      have hkept := ha.kept run hrun hi
      rw [hname, hself] at hi
      rw [hk, hkey hi] at hkept
      cases hkept

/-- One call keeps the accounts exactly if it does not lose its event. -/
theorem invoke_accounted_iff (B : Builtins) (call : ToolCall) (ha : Accounted hub) :
    Accounted (finalState (invoke B call hub)) ↔ ¬ AuditLost hub call := by
  obtain ⟨hnone, h⟩ | ⟨tool, output, world, hsome, hcached, htool, h⟩ := counts_of_invoked (invoke_cases B hub call)
  · refine ⟨fun _ => ?_, fun _ => ha.of_uncounted h⟩
    rintro ⟨tool, output, world, hsome, -⟩
    rw [hnone] at hsome
    cases hsome
  · rw [h.accounts_iff htool hcached ha]
    constructor
    · rintro ⟨he, hraises⟩ ⟨tool', output', world', hsome', hf, hor⟩
      rw [hsome] at hsome'
      cases hsome'
      obtain hi | he' := hor
      · rw [hraises hi] at hf; cases hf
      · rw [he] at he'; cases he'
    · intro hlost
      have hno : ¬ ((hub.audit.fault world).raises = true ∧
          (tool.idempotent = true ∨ (hub.audit.fault world).takesEffect = false)) :=
        fun hbad => hlost ⟨tool, output, world, hsome, hbad⟩
      cases hfault : hub.audit.fault world with
      | none => exact ⟨rfl, fun _ => rfl⟩
      | before exc =>
        rw [hfault] at hno
        exact absurd ⟨rfl, .inr rfl⟩ hno
      | after exc =>
        rw [hfault] at hno
        exact ⟨rfl, fun hi => absurd ⟨rfl, .inl hi⟩ hno⟩

theorem fresh_accounted (registry : Dict String (Tool ω)) (uuid4 : EStateM Exc ω String)
    (append : EStateM Exc ω (Fault Exc)) (world : ω) : Accounted (fresh registry uuid4 append world) where
  successes := rfl
  events := rfl
  kept _ hrun := nomatch hrun
  once := List.Pairwise.nil

/-- Over every history of calls the accounts agree in each state exactly if no
call loses its event. -/
theorem accounted_iff (B : Builtins) (registry : Dict String (Tool ω)) (uuid4 : EStateM Exc ω String)
    (append : EStateM Exc ω (Fault Exc)) (world : ω) (calls : List ToolCall) :
    (invokeMachine B).Always Accounted (fresh registry uuid4 append world) calls ↔
      (invokeMachine B).Meets (fun hub call => ¬ AuditLost hub call) (fresh registry uuid4 append world) calls := by
  refine (invokeMachine B).always_iff (fun {hub call} ha => ?_) (fresh_accounted registry uuid4 append world)
  rw [← invoke_accounted_iff B call ha]
  exact ⟨fun h => h _ rfl, fun h hub' hstep => Option.some.inj hstep ▸ h⟩

/-! ## A retry after a lost event -/

/-- `SendEmailTool`. -/
def sendEmailTool : Tool ω where
  name := "send_email"
  description := "Send an email via enterprise email gateway."
  requiredRoles := ["employee", "manager", "admin"]
  idempotent := true
  run params := return Dict.empty.update [
    ("status", .str "sent"), ("to", (params.get? (.str "to")).getD (.str "")),
    ("subject", (params.get? (.str "subject")).getD (.str "")), ("body", (params.get? (.str "body")).getD (.str ""))]

/-- The language's functions for calls whose role is allowed, which use none. -/
def unusedBuiltins : Builtins where
  str value := value.asStr.getD ""
  repr _ := ""
  sha1 _ := ""
  lower text := text
  str_str _ := rfl

/-- The first write of the audit log fails. -/
def fullDiskHub : ToolHub (List (Fault Exc)) :=
  fresh (Dict.empty.set "send_email" sendEmailTool) (pure "event-1")
    (fun faults => .ok (faults.headD .none) faults.tail) [.before ⟨.other, "[Errno 28] No space left on device"⟩]

def emailCall : ToolCall where
  toolName := "send_email"
  userRole := .str "employee"
  idempotencyKey := "x1"
  traceId := "trace-1"
  tenantId := "acme"
  userId := "u1"
  params := Dict.empty.set (.str "to") (.str "bob@acme.com")

/-- The call raises after the email is sent, and its retry under the same key
sends the email again. -/
theorem completed_twice :
    ∃ hub, (invokeMachine unusedBuiltins).run fullDiskHub [emailCall, emailCall] = some hub ∧
      hub.completions.map (·.call) = [emailCall, emailCall] ∧ hub.metrics.count "tool.success" = 2 ∧
      hub.eventCount "tool_invoke" = 1 ∧
      ¬ (invokeMachine unusedBuiltins).Always Accounted fullDiskHub [emailCall, emailCall] := by
  let hub := finalState (invoke unusedBuiltins emailCall (finalState (invoke unusedBuiltins emailCall fullDiskHub)))
  have hsuccesses : hub.metrics.count "tool.success" = 2 := by decide
  have hevents : hub.eventCount "tool_invoke" = 1 := by decide
  refine ⟨hub, rfl, by decide, hsuccesses, hevents, fun h => ?_⟩
  have ha : Accounted hub := h _ hub List.prefix_rfl rfl
  rw [ha.successes, ← ha.events, hevents] at hsuccesses
  cases hsuccesses

end Ochestrate
