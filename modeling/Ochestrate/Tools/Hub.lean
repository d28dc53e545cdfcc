import Ochestrate.Framework.Along
import Ochestrate.Observability.Metrics
import Ochestrate.Schemas.Api
import Ochestrate.Tools.Base

/-!
# The tool hub

`app/tools/hub.py`, with the counters and the audit log that it writes. The
state is the hub's own plus the world `ω` in which tools act and from which the
audit logger draws event ids and write failures. `runs` is a history variable:
every call of a tool's `run` with the dictionary it was handed.

`Dispatches P` is what the hub may do to that state: it hands tools and writes
to the audit log only dictionaries that satisfy `P`. `invoke_dispatches` says
that a call does so if the dictionary with the caller's context
(`ToolCall.injected`) satisfies `P`. `Invoked` is the inversion of `invoke`: the
ways a call can go, each with the state it leaves.
-/

namespace Ochestrate

/-- The payloads of the events that the hub and the orchestrator record. -/
inductive AuditPayload
  | toolInvoke (traceId tenantId userId toolName : String) (userRole : Json) (idempotencyKey : String)
      (params : Params)
  | completed (traceId tenantId : String) (taskType : TaskType) (confidence : Rat)
      (citations actions skillsLoaded : Nat)
  deriving DecidableEq

namespace AuditPayload

def eventType : AuditPayload → String
  | toolInvoke .. => "tool_invoke"
  | completed .. => "orchestration.completed"

/-- The dictionary of parameters in the event. -/
def params : AuditPayload → Option Params
  | toolInvoke _ _ _ _ _ _ params => some params
  | completed .. => none

end AuditPayload

/-- `AuditLogger`: where an event id comes from, how writing a line goes, and
the lines so far. -/
structure AuditLogger (ω : Type) where
  uuid4 : EStateM Exc ω String
  append : EStateM Exc ω (Fault Exc)
  log : List (AuditEvent AuditPayload) := []

/-- How recording an event goes. -/
def AuditLogger.fault {ω : Type} (audit : AuditLogger ω) (world : ω) : Fault Exc :=
  match audit.uuid4 world with
  | .error exc _ => .before exc
  | .ok _ world =>
    match audit.append world with
    | .error exc _ => .before exc
    | .ok fault _ => fault

/-- A call of a tool's `run`; `output` is `none` if it raised. -/
structure ToolRun where
  call : ToolCall
  params : Params
  output : Option (Dict String Json)
  deriving DecidableEq

structure ToolHub (ω : Type) where
  metrics : MetricsRegistry := {}
  audit : AuditLogger ω
  registry : Dict String (Tool ω) := .empty
  idempotencyCache : Dict String ToolInvokeResult := .empty
  world : ω
  runs : List ToolRun := []

/-- An entry of `list_capabilities`. -/
structure Capability where
  name : String
  description : String
  requiredRoles : List String
  idempotent : Bool
  deriving DecidableEq

/-- The dictionary handed to the tool: the call's, with the caller's context
as defaults. -/
def ToolCall.injected (call : ToolCall) : Params :=
  ((call.params.setDefault (.str "_tenant_id") (.str call.tenantId)).setDefault
    (.str "_user_id") (.str call.userId)).setDefault (.str "_user_role") call.userRole

namespace ToolHub

variable {ω : Type}

/-- Run a program of the world outside the hub. -/
def outside {α : Type} (x : EStateM Exc ω α) : EStateM Exc (ToolHub ω) α :=
  zoomed (·.world) (fun hub world => { hub with world }) x

def inc (metricName : String) : EStateM Exc (ToolHub ω) Unit :=
  modify fun hub => { hub with metrics := hub.metrics.inc metricName }

/-- `AuditLogger.record`. -/
def record (payload : AuditPayload) : EStateM Exc (ToolHub ω) String := do
  let eventId ← outside (← get).audit.uuid4
  let fault ← outside (← get).audit.append
  faulty fault fun hub =>
    { hub with audit := { hub.audit with log := hub.audit.log ++ [⟨eventId, payload.eventType, payload⟩] } }
  return eventId

def register (tool : Tool ω) : EStateM Exc (ToolHub ω) Unit :=
  modify fun hub => { hub with registry := hub.registry.set tool.name tool }

def listCapabilities : EStateM Exc (ToolHub ω) (List Capability) := do
  return (← get).registry.values.map fun tool =>
    ⟨tool.name, tool.description, tool.requiredRoles, tool.idempotent⟩

/-- `tool.run(params)`. -/
def runTool (tool : Tool ω) (call : ToolCall) (params : Params) :
    EStateM Exc (ToolHub ω) (Dict String Json) := fun hub =>
  match tool.run params hub.world with
  | .ok output world => .ok output { hub with world, runs := hub.runs ++ [⟨call, params, some output⟩] }
  | .error exc world => .error exc { hub with world, runs := hub.runs ++ [⟨call, params, none⟩] }

/-- The entry that answers the call without a run. -/
def cached (hub : ToolHub ω) (tool : Tool ω) (call : ToolCall) : Option ToolInvokeResult :=
  if tool.idempotent then hub.idempotencyCache.get? call.idempotencyKey else none

/-- The call once it is allowed and not cached. -/
def dispatch (tool : Tool ω) (call : ToolCall) : EStateM Exc (ToolHub ω) ToolInvokeResult := do
  let params := call.injected
  let output ← runTool tool call params
  inc "tool.success"
  let auditRef ← record (.toolInvoke call.traceId call.tenantId call.userId call.toolName call.userRole
    call.idempotencyKey params)
  let result : ToolInvokeResult := {
    output, auditRef
    policyApplied := (Dict.empty.set "role_checked" (.bool true)).set "idempotency_cache_hit" (.bool false) }
  modify fun hub =>
    if tool.idempotent then
      { hub with idempotencyCache := hub.idempotencyCache.set call.idempotencyKey result }
    else hub
  return result

def invoke (B : Builtins) (call : ToolCall) : EStateM Exc (ToolHub ω) ToolInvokeResult := do
  let hub ← get
  match hub.registry.get? call.toolName with
  | none => throw ⟨.valueError, "tool '" ++ call.toolName ++ "' is not registered"⟩
  | some tool =>
    if call.userRole ∉ tool.requiredRoles.map Json.str then
      inc "tool.permission_denied"
      throw ⟨.permissionError, "role '" ++ B.str call.userRole ++ "' cannot invoke '" ++ call.toolName ++ "'"⟩
    else
      match hub.cached tool call with
      | some hit =>
        inc "tool.idempotency_hit"
        return { hit with
          policyApplied := hit.policyApplied.set "idempotency_cache_hit" (.bool true)
          cacheHit := true }
      | none => dispatch tool call

/-! ## What a call hands to tools and to the audit log -/

/-- Between two states: every dictionary handed to a tool and every one
written to the audit log satisfies `P`. -/
def Dispatches (P : Params → Prop) (hub hub' : ToolHub ω) : Prop :=
  ∃ runs events, hub'.runs = hub.runs ++ runs ∧ hub'.audit.log = hub.audit.log ++ events ∧
    (∀ run ∈ runs, P run.params) ∧ ∀ event ∈ events, ∀ params, event.payload.params = some params → P params

variable {P : Params → Prop} {hub hub' hub'' : ToolHub ω}

/-- Nothing was handed out. -/
theorem Dispatches.of_eq (hr : hub'.runs = hub.runs) (ha : hub'.audit.log = hub.audit.log) :
    Dispatches P hub hub' :=
  ⟨[], [], by simp [hr], by simp [ha], by simp, by simp⟩

theorem Dispatches.refl (hub : ToolHub ω) : Dispatches P hub hub := .of_eq rfl rfl

theorem Dispatches.trans (h : Dispatches P hub hub') (h' : Dispatches P hub' hub'') :
    Dispatches P hub hub'' := by
  obtain ⟨r, e, hr, he, hpr, hpe⟩ := h
  obtain ⟨r', e', hr', he', hpr', hpe'⟩ := h'
  refine ⟨r ++ r', e ++ e', by rw [hr', hr, List.append_assoc], by rw [he', he, List.append_assoc],
    fun run hrun => ?_, fun event hevent => ?_⟩
  · exact (List.mem_append.1 hrun).elim (hpr run) (hpr' run)
  · exact (List.mem_append.1 hevent).elim (hpe event) (hpe' event)

section Rules

variable {α β : Type} {Q : α → Prop} {Q' : β → Prop} {x : EStateM Exc (ToolHub ω) α}

theorem Dispatches.pure {a : α} (h : Q a) : Along (Dispatches P) (pure a : EStateM Exc (ToolHub ω) α) Q :=
  Along.pure .refl h

theorem Dispatches.throw (exc : Exc) : Along (Dispatches P) (throw exc : EStateM Exc (ToolHub ω) α) Q :=
  Along.throw .refl exc

theorem Dispatches.bind (h : Along (Dispatches P) x Q) {f : α → EStateM Exc (ToolHub ω) β}
    (hf : ∀ a, Q a → Along (Dispatches P) (f a) Q') : Along (Dispatches P) (x >>= f) Q' :=
  Along.bind (fun _ _ _ => .trans) h hf

theorem Dispatches.tryCatch (h : Along (Dispatches P) x Q) {f : Exc → EStateM Exc (ToolHub ω) α}
    (hf : ∀ exc, Along (Dispatches P) (f exc) Q) : Along (Dispatches P) (tryCatch x f) Q :=
  Along.tryCatch (fun _ _ _ => .trans) h hf

end Rules

theorem outside_dispatches {α : Type} (x : EStateM Exc ω α) :
    Along (Dispatches P) (outside x) (fun _ => True) :=
  Along.zoomed (fun _ _ => .of_eq rfl rfl) x

theorem inc_dispatches (metricName : String) :
    Along (Dispatches P) (inc metricName : EStateM Exc (ToolHub ω) Unit) (fun _ => True) :=
  Along.modify fun _ => .of_eq rfl rfl

/-- Recording an event writes the event's own dictionary. -/
theorem record_dispatches {payload : AuditPayload} (h : ∀ params, payload.params = some params → P params) :
    Along (Dispatches P) (record payload : EStateM Exc (ToolHub ω) String) (fun _ => True) := by
  unfold record
  refine Dispatches.bind (Along.get .refl) fun hub _ => ?_
  refine Dispatches.bind (outside_dispatches _) fun eventId _ => ?_
  refine Dispatches.bind (Along.get .refl) fun hub' _ => ?_
  refine Dispatches.bind (outside_dispatches _) fun fault _ => ?_
  refine Dispatches.bind (Along.faulty .refl fault fun hub'' => ?_)
    fun _ _ => Dispatches.pure trivial
  exact ⟨[], [⟨eventId, payload.eventType, payload⟩], by simp, rfl, by simp, by simpa using h⟩

theorem runTool_dispatches (tool : Tool ω) (call : ToolCall) {params : Params} (h : P params) :
    Along (Dispatches P) (runTool tool call params) (fun _ => True) := by
  intro hub
  unfold runTool
  cases tool.run params hub.world with
  | ok output world => exact ⟨⟨[⟨call, params, some output⟩], [], rfl, by simp, by simpa using h, by simp⟩, trivial⟩
  | error exc world => exact ⟨[⟨call, params, none⟩], [], rfl, by simp, by simpa using h, by simp⟩

theorem dispatch_dispatches (tool : Tool ω) {call : ToolCall} (h : P call.injected) :
    Along (Dispatches P) (dispatch tool call) (fun _ => True) := by
  unfold dispatch
  refine Dispatches.bind (runTool_dispatches tool call h) fun output _ => ?_
  refine Dispatches.bind (inc_dispatches _) fun _ _ => ?_
  refine Dispatches.bind (record_dispatches ?_) fun auditRef _ => ?_
  · rintro params ⟨⟩
    exact h
  · refine Dispatches.bind (Along.modify fun hub => ?_) fun _ _ => Dispatches.pure trivial
    split
    · exact .of_eq rfl rfl
    · exact .refl hub

/-- A call hands out no dictionary but the one with the caller's context. -/
theorem invoke_dispatches (B : Builtins) {call : ToolCall} (h : P call.injected) :
    Along (Dispatches P) (invoke B call : EStateM Exc (ToolHub ω) ToolInvokeResult) (fun _ => True) := by
  unfold invoke
  refine Dispatches.bind (Along.get .refl) fun hub _ => ?_
  split
  · exact Dispatches.throw _
  · next tool _ =>
    split
    · exact Dispatches.bind (inc_dispatches _) fun _ _ => Dispatches.throw _
    · split
      · exact Dispatches.bind (inc_dispatches _) fun _ _ => Dispatches.pure trivial
      · exact dispatch_dispatches tool h

/-! ## The ways a call can go -/

/-- The tool that a call runs, with the output and the world if the run
returns. -/
def completion (hub : ToolHub ω) (call : ToolCall) : Option (Tool ω × Dict String Json × ω) :=
  match hub.registry.get? call.toolName with
  | none => none
  | some tool =>
    if call.userRole ∈ tool.requiredRoles.map Json.str ∧ hub.cached tool call = none then
      match tool.run call.injected hub.world with
      | .ok output world => some (tool, output, world)
      | .error .. => none
    else none

/-- A line more in the audit log. -/
def logged (hub : ToolHub ω) (payload : AuditPayload) (eventId : String) (world : ω) : ToolHub ω :=
  { hub with world, audit := { hub.audit with log := hub.audit.log ++ [⟨eventId, payload.eventType, payload⟩] } }

/-- The tool's run has returned and is counted. -/
def completed (hub : ToolHub ω) (call : ToolCall) (output : Dict String Json) (world : ω) : ToolHub ω :=
  { hub with
    world
    runs := hub.runs ++ [⟨call, call.injected, some output⟩]
    metrics := hub.metrics.inc "tool.success" }

/-- The event of a call. -/
def auditPayload (call : ToolCall) : AuditPayload :=
  .toolInvoke call.traceId call.tenantId call.userId call.toolName call.userRole call.idempotencyKey call.injected

/-- The result of a call that ran the tool. -/
def freshResult (output : Dict String Json) (auditRef : String) : ToolInvokeResult where
  output := output
  auditRef := auditRef
  policyApplied := (Dict.empty.set "role_checked" (.bool true)).set "idempotency_cache_hit" (.bool false)

/-- The result of an idempotent tool is kept. -/
def keep (hub : ToolHub ω) (tool : Tool ω) (call : ToolCall) (result : ToolInvokeResult) : ToolHub ω :=
  if tool.idempotent then { hub with idempotencyCache := hub.idempotencyCache.set call.idempotencyKey result } else hub

/-- The result that answers a call from the cache. -/
def hitResult (entry : ToolInvokeResult) : ToolInvokeResult :=
  { entry with policyApplied := entry.policyApplied.set "idempotency_cache_hit" (.bool true), cacheHit := true }

/-- Recording returns the id of the event, raises without a trace in the log,
or raises after the line is written. -/
theorem record_cases (payload : AuditPayload) (hub : ToolHub ω) :
    (hub.audit.fault hub.world = .none ∧
        ∃ eventId world, record payload hub = .ok eventId (hub.logged payload eventId world)) ∨
      (∃ exc world, hub.audit.fault hub.world = .before exc ∧ record payload hub = .error exc { hub with world }) ∨
      ∃ exc eventId world, hub.audit.fault hub.world = .after exc ∧
        record payload hub = .error exc (hub.logged payload eventId world) := by
  have hbind : record payload hub = (outside hub.audit.uuid4 >>= fun eventId => do
      let fault ← outside (← get).audit.append
      faulty fault fun hub =>
        { hub with audit := { hub.audit with log := hub.audit.log ++ [⟨eventId, payload.eventType, payload⟩] } }
      return eventId) hub := rfl
  cases huuid : hub.audit.uuid4 hub.world with
  | error exc world =>
    have houtside : outside hub.audit.uuid4 hub = .error exc { hub with world } := by
      simp only [outside, zoomed, huuid]
    have hfault : hub.audit.fault hub.world = .before exc := by simp only [AuditLogger.fault, huuid]
    exact .inr (.inl ⟨exc, world, hfault, by rw [hbind, bind_error houtside]⟩)
  | ok eventId world =>
    let hub₁ : ToolHub ω := { hub with world }
    have houtside : outside hub.audit.uuid4 hub = .ok eventId hub₁ := zoomed_ok huuid
    rw [hbind, bind_ok houtside, get_bind]
    cases happend : hub.audit.append world with
    | error exc world' =>
      have houtside' : outside hub₁.audit.append hub₁ = .error exc { hub with world := world' } := by
        simp only [outside, zoomed, hub₁, happend]
      have hfault : hub.audit.fault hub.world = .before exc := by simp only [AuditLogger.fault, huuid, happend]
      exact .inr (.inl ⟨exc, world', hfault, bind_error houtside' _⟩)
    | ok fault world' =>
      have houtside' : outside hub₁.audit.append hub₁ = .ok fault { hub with world := world' } := zoomed_ok happend
      have hfault : hub.audit.fault hub.world = fault := by simp only [AuditLogger.fault, huuid, happend]
      rw [bind_ok houtside', hfault]
      cases fault with
      | none => exact .inl ⟨rfl, eventId, world', rfl⟩
      | before exc => exact .inr (.inl ⟨exc, world', rfl, rfl⟩)
      | after exc => exact .inr (.inr ⟨exc, eventId, world', rfl, rfl⟩)

/-- What recording an event changes, by how it goes: at most the log. -/
structure Recorded (payload : AuditPayload) (fault : Fault Exc) (hub hub' : ToolHub ω) : Prop where
  runs : hub'.runs = hub.runs
  metrics : hub'.metrics = hub.metrics
  registry : hub'.registry = hub.registry
  cache : hub'.idempotencyCache = hub.idempotencyCache
  log : ∃ eventId, hub'.audit.log =
    hub.audit.log ++ if fault.takesEffect then [⟨eventId, payload.eventType, payload⟩] else []

theorem recorded_ok {payload : AuditPayload} {hub hub' : ToolHub ω} {eventId : String}
    (h : record payload hub = .ok eventId hub') :
    (hub.audit.fault hub.world).raises = false ∧ Recorded payload (hub.audit.fault hub.world) hub hub' := by
  obtain ⟨hfault, id, world, hok⟩ | ⟨exc, world, hfault, hbefore⟩ | ⟨exc, id, world, hfault, hafter⟩ :=
    record_cases payload hub
  · rw [hok] at h
    cases h
    rw [hfault]
    exact ⟨rfl, rfl, rfl, rfl, rfl, eventId, rfl⟩
  · rw [hbefore] at h; cases h
  · rw [hafter] at h; cases h

theorem recorded_error {payload : AuditPayload} {hub hub' : ToolHub ω} {exc : Exc}
    (h : record payload hub = .error exc hub') :
    (hub.audit.fault hub.world).raises = true ∧ Recorded payload (hub.audit.fault hub.world) hub hub' := by
  obtain ⟨hfault, id, world, hok⟩ | ⟨exc, world, hfault, hbefore⟩ | ⟨exc, id, world, hfault, hafter⟩ :=
    record_cases payload hub
  · rw [hok] at h; cases h
  · rw [hbefore] at h
    cases h
    rw [hfault]
    exact ⟨rfl, rfl, rfl, rfl, rfl, "", (List.append_nil _).symm⟩
  · rw [hafter] at h
    cases h
    rw [hfault]
    exact ⟨rfl, rfl, rfl, rfl, rfl, id, rfl⟩

section Keep

variable (hub : ToolHub ω) (tool : Tool ω) (call : ToolCall) (result : ToolInvokeResult)

@[simp] theorem keep_runs : (hub.keep tool call result).runs = hub.runs := by unfold keep; split <;> rfl

@[simp] theorem keep_metrics : (hub.keep tool call result).metrics = hub.metrics := by unfold keep; split <;> rfl

@[simp] theorem keep_registry : (hub.keep tool call result).registry = hub.registry := by unfold keep; split <;> rfl

@[simp] theorem keep_audit : (hub.keep tool call result).audit = hub.audit := by unfold keep; split <;> rfl

end Keep

/-- The entries of the cache after a result is kept. -/
theorem keep_get? (hub : ToolHub ω) (tool : Tool ω) (call : ToolCall) (result : ToolInvokeResult) (key : String) :
    (hub.keep tool call result).idempotencyCache.get? key =
      if tool.idempotent = true ∧ key = call.idempotencyKey then some result
      else hub.idempotencyCache.get? key := by
  unfold keep
  split
  · next hi =>
    rw [Dict.get?_set]
    simp only [hi, true_and]
  · next hi => simp only [hi, false_and, Bool.false_eq_true, ↓reduceIte]

/-- A call is refused, is answered from the cache, or runs the tool: the run
raises, recording it raises, or the call returns. -/
inductive Invoked (hub : ToolHub ω) (call : ToolCall) : EStateM.Result Exc (ToolHub ω) ToolInvokeResult → Prop
  | unregistered {exc : Exc} (htool : hub.registry.get? call.toolName = none) : Invoked hub call (.error exc hub)
  | denied {tool : Tool ω} {exc : Exc} (htool : hub.registry.get? call.toolName = some tool)
      (hrole : call.userRole ∉ tool.requiredRoles.map Json.str) :
      Invoked hub call (.error exc { hub with metrics := hub.metrics.inc "tool.permission_denied" })
  | hit {tool : Tool ω} {entry : ToolInvokeResult} (htool : hub.registry.get? call.toolName = some tool)
      (hrole : call.userRole ∈ tool.requiredRoles.map Json.str) (hcached : hub.cached tool call = some entry) :
      Invoked hub call (.ok (hitResult entry) { hub with metrics := hub.metrics.inc "tool.idempotency_hit" })
  | raised {tool : Tool ω} {exc : Exc} {world : ω} (htool : hub.registry.get? call.toolName = some tool)
      (hrole : call.userRole ∈ tool.requiredRoles.map Json.str) (hcached : hub.cached tool call = none)
      (hrun : tool.run call.injected hub.world = .error exc world) :
      Invoked hub call (.error exc { hub with world, runs := hub.runs ++ [⟨call, call.injected, none⟩] })
  | unrecorded {tool : Tool ω} {output : Dict String Json} {world : ω} {exc : Exc} {hub' : ToolHub ω}
      (htool : hub.registry.get? call.toolName = some tool) (hrole : call.userRole ∈ tool.requiredRoles.map Json.str)
      (hcached : hub.cached tool call = none) (hrun : tool.run call.injected hub.world = .ok output world)
      (hrecord : record (auditPayload call) (hub.completed call output world) = .error exc hub') :
      Invoked hub call (.error exc hub')
  | returned {tool : Tool ω} {output : Dict String Json} {world : ω} {auditRef : String} {hub' : ToolHub ω}
      (htool : hub.registry.get? call.toolName = some tool) (hrole : call.userRole ∈ tool.requiredRoles.map Json.str)
      (hcached : hub.cached tool call = none) (hrun : tool.run call.injected hub.world = .ok output world)
      (hrecord : record (auditPayload call) (hub.completed call output world) = .ok auditRef hub') :
      Invoked hub call (.ok (freshResult output auditRef) (hub'.keep tool call (freshResult output auditRef)))

theorem invoke_cases (B : Builtins) (hub : ToolHub ω) (call : ToolCall) : Invoked hub call (invoke B call hub) := by
  unfold invoke
  rw [get_bind]
  cases htool : hub.registry.get? call.toolName with
  | none => exact .unregistered htool
  | some tool =>
    dsimp only
    by_cases hrole : call.userRole ∉ tool.requiredRoles.map Json.str
    · rw [if_pos hrole]
      exact .denied htool hrole
    · rw [if_neg hrole]
      replace hrole := not_not.1 hrole
      cases hcached : hub.cached tool call with
      | some entry => exact .hit htool hrole hcached
      | none =>
        cases hrun : tool.run call.injected hub.world with
        | error exc world =>
          have hrunTool : runTool tool call call.injected hub =
              .error exc { hub with world, runs := hub.runs ++ [⟨call, call.injected, none⟩] } := by
            simp only [runTool, hrun]
          have hdispatch : dispatch tool call hub = .error exc _ := bind_error hrunTool _
          show Invoked hub call (dispatch tool call hub)
          rw [hdispatch]
          exact .raised htool hrole hcached hrun
        | ok output world =>
          have hrunTool : runTool tool call call.injected hub =
              .ok output { hub with world, runs := hub.runs ++ [⟨call, call.injected, some output⟩] } := by
            simp only [runTool, hrun]
          have hdispatch : dispatch tool call hub = (record (auditPayload call) >>= fun auditRef => do
              modify fun hub => hub.keep tool call (freshResult output auditRef)
              return freshResult output auditRef) (hub.completed call output world) := bind_ok hrunTool _
          show Invoked hub call (dispatch tool call hub)
          rw [hdispatch]
          cases hrecord : record (auditPayload call) (hub.completed call output world) with
          | error exc hub' =>
            rw [bind_error hrecord]
            exact .unrecorded htool hrole hcached hrun hrecord
          | ok auditRef hub' =>
            rw [bind_ok hrecord]
            exact .returned htool hrole hcached hrun hrecord

theorem invoke_hit (B : Builtins) {hub : ToolHub ω} {call : ToolCall} {tool : Tool ω} {entry : ToolInvokeResult}
    (htool : hub.registry.get? call.toolName = some tool) (hrole : call.userRole ∈ tool.requiredRoles.map Json.str)
    (hcached : hub.cached tool call = some entry) :
    invoke B call hub = .ok (hitResult entry) { hub with metrics := hub.metrics.inc "tool.idempotency_hit" } := by
  unfold invoke
  rw [get_bind]
  simp only [htool, hrole, not_true_eq_false, ↓reduceIte, hcached]
  rfl

/-- No run returns in a call that is refused or answered from the cache, or
whose run raises. -/
theorem completion_none {hub : ToolHub ω} {call : ToolCall} {tool : Tool ω}
    (htool : hub.registry.get? call.toolName = some tool)
    (h : call.userRole ∉ tool.requiredRoles.map Json.str ∨ hub.cached tool call ≠ none ∨
      ∃ exc world, tool.run call.injected hub.world = .error exc world) : hub.completion call = none := by
  simp only [completion, htool]
  split
  · next hgo =>
    obtain h | h | ⟨exc, world, h⟩ := h
    · exact absurd hgo.1 h
    · exact absurd hgo.2 h
    · simp only [h]
  · rfl

theorem completion_some {hub : ToolHub ω} {call : ToolCall} {tool : Tool ω} {output : Dict String Json} {world : ω}
    (htool : hub.registry.get? call.toolName = some tool) (hrole : call.userRole ∈ tool.requiredRoles.map Json.str)
    (hcached : hub.cached tool call = none) (hrun : tool.run call.injected hub.world = .ok output world) :
    hub.completion call = some (tool, output, world) := by
  simp only [completion, htool, if_pos (show _ ∧ _ from ⟨hrole, hcached⟩), hrun]

end ToolHub

end Ochestrate
