import Ochestrate.Api.Agent

/-!
# Whose identity a tool sees

The hub adds the caller's tenant, user and role to the parameters of a call as
defaults, after the client's override has been merged, so an override that
sets `_tenant_id`, `_user_id` or `_user_role` wins. `HonestPlan` is the
condition on the overrides of a request under which none does, and
`identity_kept` says that it is exact: the dictionaries that tools and the
audit log get carry the token's identity, in every deployment, if and only if
it holds. `overridden_tenant` is a run where they do not.
-/

namespace Ochestrate

open ToolHub ExecutorAgent PlannerAgent

/-- The entries that say who is calling. -/
def identity (auth : AuthContext) : List (Key × Json) :=
  [(.str "_tenant_id", .str auth.tenantId), (.str "_user_id", .str auth.userId),
    (.str "_user_role", .str auth.role)]

/-- The parameters carry the identity of the access token. -/
def Identified (auth : AuthContext) (params : Params) : Prop :=
  ∀ entry ∈ identity auth, params.get? entry.1 = some entry.2

/-- The value that merging the pairs gives a key. -/
def merged (pairs : List (Key × Json)) (k : Key) : Option Json := pairs.reverse.lookup k

/-- An override does not touch the identity: what it says about it is what the
token says, and it does not make the confirmation of a write take its place. -/
def Honest (B : Builtins) (auth : AuthContext) (toolName : String) (pairs : List (Key × Json)) : Prop :=
  (∀ entry ∈ identity auth, ∀ v, merged pairs entry.1 = some v → v = entry.2) ∧
    (toolName = "database_tool" → ∀ entry ∈ identity auth,
      Key.str (B.str ((merged pairs (.str "confirm_field")).getD (.str "confirm_write"))) = entry.1 →
        merged pairs entry.1 ≠ none)

/-- The overrides of the planned tools are honest, up to the first one that
`dict.update` rejects. -/
def HonestPlan (B : Builtins) (auth : AuthContext) (overrides : Dict String Json) : List Step → Prop
  | [] => True
  | .validatePermissions :: steps => HonestPlan B auth overrides steps
  | .respond _ :: steps => HonestPlan B auth overrides steps
  | .tool toolName _ :: steps =>
    match ((overrides.get? toolName).getD (.obj [])).updatePairs with
    | .error _ => True
    | .ok pairs => Honest B auth toolName pairs ∧ HonestPlan B auth overrides steps

/-! ## The dictionaries that are handed over -/

variable {B : Builtins} {auth : AuthContext}

/-- The caller's context is only a default. -/
theorem injected_identity {call : ToolCall} (ht : call.tenantId = auth.tenantId)
    (hu : call.userId = auth.userId) (hr : call.userRole = .str auth.role) {entry : Key × Json}
    (he : entry ∈ identity auth) :
    call.injected.get? entry.1 = some ((call.params.get? entry.1).getD entry.2) := by
  simp only [identity, List.mem_cons, List.not_mem_nil, or_false] at he
  rcases he with rfl | rfl | rfl <;> simp [ToolCall.injected, Dict.get?_setDefault, ht, hu, hr]

theorem injected_identified {call : ToolCall} (ht : call.tenantId = auth.tenantId)
    (hu : call.userId = auth.userId) (hr : call.userRole = .str auth.role) :
    Identified auth call.injected ↔
      ∀ entry ∈ identity auth, ∀ v, call.params.get? entry.1 = some v → v = entry.2 := by
  refine forall₂_congr fun entry he => ?_
  rw [injected_identity ht hu hr he]
  cases call.params.get? entry.1 <;> simp

/-- Where a planned step says nothing, a merged dictionary says what the
override says. -/
theorem get?_update_planned {planned : Params} {k : Key} (h : planned.get? k = none)
    (pairs : List (Key × Json)) : (planned.update pairs).get? k = merged pairs k := by
  rw [Dict.get?_update, h, Option.or_none, merged]

/-- The merged parameters of an honest override, and of no other, agree with
the token. -/
theorem merge_honest {c : ExecuteContext} {toolName : String} {planned : Params}
    (hp : ∀ name, name ∉ plannedNames → planned.get? (.str name) = none) (pairs : List (Key × Json)) :
    (∀ entry ∈ identity auth, ∀ v, (merge B c toolName planned pairs).get? entry.1 = some v → v = entry.2) ↔
      Honest B auth toolName pairs := by
  have hid : ∀ entry ∈ identity auth, (planned.update pairs).get? entry.1 = merged pairs entry.1 := by
    simp only [identity, List.forall_mem_cons]
    exact ⟨get?_update_planned (hp _ (by decide)) pairs, get?_update_planned (hp _ (by decide)) pairs,
      get?_update_planned (hp _ (by decide)) pairs, by simp⟩
  have hstr : ∀ entry ∈ identity auth, Json.bool c.policy.confirmWrite ≠ entry.2 := by
    simp [identity]
  have hc : (planned.update pairs).get? (.str "confirm_field") = merged pairs (.str "confirm_field") :=
    get?_update_planned (hp _ (by decide)) pairs
  unfold Honest merge
  by_cases hd : toolName = "database_tool"
  · simp only [hd, ↓reduceIte, forall_const, ← forall₂_and, Dict.get?_setDefault, confirmKey, hc]
    refine forall₂_congr fun entry he => ?_
    rw [hid entry he]
    by_cases hk : Key.str (B.str ((merged pairs (.str "confirm_field")).getD (.str "confirm_write"))) = entry.1
    · rw [hk, if_pos rfl, hid entry he]
      cases hm : merged pairs entry.1 with
      | none => simp [hstr entry he]
      | some w => simp
    · rw [if_neg (Ne.symm hk)]
      simp [hk]
  · simp only [hd, ↓reduceIte, false_implies, and_true]
    exact forall₂_congr fun entry he => by rw [hid entry he]

/-- The dictionaries handed over for a plan carry the token's identity if and
only if the plan's overrides are honest. -/
theorem handed_honest {c : ExecuteContext} (ht : c.tenantId = auth.tenantId) (hu : c.userId = auth.userId)
    (hr : c.userRole = .str auth.role) {overrides : Dict String Json} (ho : c.toolOverrides = some overrides)
    {steps : List Step} (hp : ∀ toolName planned, .tool toolName planned ∈ steps →
      ∀ name, name ∉ plannedNames → planned.get? (.str name) = none) :
    (∀ params ∈ handed B c steps, Identified auth params) ↔ HonestPlan B auth overrides steps := by
  induction steps with
  | nil => simp [handed, HonestPlan]
  | cons step steps ih =>
    have ih := ih fun toolName params h => hp toolName params (List.mem_cons_of_mem _ h)
    cases step with
    | validatePermissions => exact ih
    | respond => exact ih
    | tool toolName planned =>
      have hov : overrideOf c toolName = (overrides.get? toolName).getD (.obj []) := by
        rw [overrideOf, ho, Option.getD_some]
      simp only [handed, HonestPlan, hov]
      cases ((overrides.get? toolName).getD (.obj [])).updatePairs with
      | error exc => simp
      | ok pairs =>
        have hh : Identified auth (toolCall B c toolName (merge B c toolName planned pairs)).injected ↔
            Honest B auth toolName pairs :=
          (injected_identified ht hu hr).trans (merge_honest (hp toolName planned (List.mem_cons_self ..)) pairs)
        rw [List.forall_mem_cons, ih, hh]

/-! ## A deployment in which every planned tool runs -/

/-- A tool that everyone of the role may call and that always returns. -/
def openTool (role toolName : String) : Tool Unit where
  name := toolName
  description := ""
  requiredRoles := [role]
  idempotent := false
  run _ := return .empty

/-- The tools are registered and open to the role, and no audit write fails. -/
structure Open (role : String) (toolNames : List String) (hub : ToolHub Unit) : Prop where
  registered : ∀ toolName ∈ toolNames, hub.registry.get? toolName = some (openTool role toolName)
  uuid4 : hub.audit.uuid4 = pure ""
  append : hub.audit.append = pure .none

variable {role : String} {toolNames : List String} {hub : ToolHub Unit}

theorem record_open (h : Open role toolNames hub) (payload : AuditPayload) :
    ∃ hub', record payload hub = .ok "" hub' ∧ Open role toolNames hub' ∧ hub'.runs = hub.runs := by
  have hu : outside hub.audit.uuid4 hub = .ok "" hub := zoomed_ok (by rw [h.uuid4]; rfl)
  have ha : outside hub.audit.append hub = .ok .none hub := zoomed_ok (by rw [h.append]; rfl)
  refine ⟨{ hub with audit := { hub.audit with log := hub.audit.log ++ [⟨"", payload.eventType, payload⟩] } }, ?_,
    ⟨h.registered, h.uuid4, h.append⟩, rfl⟩
  unfold record
  rw [get_bind, bind_ok hu, get_bind, bind_ok ha]
  rfl

/-- Every call is dispatched, and keeps no later one from being. -/
theorem invoke_open (h : Open role toolNames hub) {call : ToolCall} (hn : call.toolName ∈ toolNames)
    (hr : call.userRole = .str role) :
    ∃ result hub', invoke B call hub = .ok result hub' ∧ Open role toolNames hub' ∧
      hub'.runs = hub.runs ++ [⟨call, call.injected, some .empty⟩] := by
  have hd : invoke B call hub = dispatch (openTool role call.toolName) call hub := by
    unfold invoke
    rw [get_bind]
    simp [h.registered _ hn, hr, openTool, cached]
  have h₁ : Open role toolNames { hub with
      metrics := hub.metrics.inc "tool.success", runs := hub.runs ++ [⟨call, call.injected, some .empty⟩] } :=
    ⟨h.registered, h.uuid4, h.append⟩
  obtain ⟨hub₂, hrec, h₂, hruns⟩ := record_open h₁ (.toolInvoke call.traceId call.tenantId call.userId
    call.toolName call.userRole call.idempotencyKey call.injected)
  have hrun : runTool (openTool role call.toolName) call call.injected hub =
      .ok .empty { hub with runs := hub.runs ++ [⟨call, call.injected, some .empty⟩] } := rfl
  refine ⟨⟨.empty, "", (Dict.empty.set "role_checked" (.bool true)).set "idempotency_cache_hit" (.bool false),
    false⟩, hub₂, ?_, h₂, hruns⟩
  rw [hd]
  unfold dispatch
  rw [bind_ok hrun, inc, modify_bind, bind_ok hrec]
  rfl

/-- Every dictionary that the executor hands over reaches a tool. -/
theorem rounds_open {c : ExecuteContext} (hr : c.userRole = .str role) {steps : List Step}
    (hs : ∀ toolName planned, .tool toolName planned ∈ steps → toolName ∈ toolNames)
    (h : Open role toolNames hub) (actions : List Action) {params : Params} (hp : params ∈ handed B c steps) :
    ∃ run ∈ (finalState (steps.foldlM (executeStep B c) actions hub)).runs, run.params = params := by
  induction steps generalizing hub actions with
  | nil => simp [handed] at hp
  | cons step steps ih =>
    have hs' : ∀ toolName planned, .tool toolName planned ∈ steps → toolName ∈ toolNames :=
      fun toolName planned h => hs toolName planned (List.mem_cons_of_mem _ h)
    rw [List.foldlM_cons]
    cases step with
    | validatePermissions => exact ih hs' h actions hp
    | respond => exact ih hs' h actions hp
    | tool toolName planned =>
      simp only [handed] at hp
      cases hu : (overrideOf c toolName).updatePairs with
      | error exc => simp [hu] at hp
      | ok pairs =>
        simp only [hu, List.mem_cons] at hp
        have hn : toolName ∈ toolNames := hs toolName planned (List.mem_cons_self ..)
        let call := toolCall B c toolName (merge B c toolName planned pairs)
        obtain ⟨result, hub', hinv, h', hruns⟩ := invoke_open (B := B) h (show call.toolName ∈ toolNames from hn) hr
        have hstep : executeStep B c actions (.tool toolName planned) hub =
            .ok (actions ++ [successAction toolName result]) hub' := by
          simp only [executeStep, hu]
          exact bind_ok (invokeStep_ok hinv) _
        rw [bind_ok hstep]
        rcases hp with rfl | hp
        · obtain ⟨more, _, hmore, _⟩ := (rounds_dispatches (P := fun _ => True) B c steps
            (fun _ _ => trivial) (actions ++ [successAction toolName result])).finalState hub'
          have hmem : (⟨call, call.injected, some .empty⟩ : ToolRun) ∈ hub'.runs :=
            hruns ▸ List.mem_append_right _ (List.mem_singleton_self _)
          exact ⟨_, hmore ▸ List.mem_append_left _ hmem, rfl⟩
        · exact ih hs' h' _ hp

/-- Collaborators that find and keep nothing. -/
def quietCollaborators : Collaborators Unit where
  retrieve _ := return []
  review answer _ _ := return (answer, 0)
  generate prompt _ _ := return (prompt, false)
  readShort _ _ _ := return []
  readLong _ _ _ := return []
  writeShort _ _ _ content := return { memoryType := .short, content }
  writeLong _ _ content _ := return { memoryType := .long, content }
  assemble data := return data.task
  buildContext layers := return layers.taskContext
  loadSkills := return []
  newTraceId := return ""

/-- A run gets to the executor, which hands over the whole plan. -/
theorem run_open {request : UnifiedRequest} (ha : request.policy.autoExecute = true)
    (hr : (executeContext request "").userRole = .str role)
    (hs : ∀ toolName planned, .tool toolName planned ∈ plan B request → toolName ∈ toolNames)
    (h : Open role toolNames hub) {params : Params}
    (hp : params ∈ handed B (executeContext request "") (plan B request)) :
    ∃ run ∈ (finalState ((orchestrator B quietCollaborators false).run request hub)).runs,
      run.params = params := by
  let hub₁ : ToolHub Unit := { hub with metrics := hub.metrics.inc "request.total" }
  have h₁ : Open role toolNames hub₁ := ⟨h.registered, h.uuid4, h.append⟩
  obtain ⟨run, hrun, hparams⟩ := rounds_open hr hs h₁ [] hp
  have hexec : execute B (plan B request) (executeContext request "") hub₁ =
      (plan B request).foldlM (executeStep B (executeContext request "")) [] hub₁ := by
    simp only [execute, executeContext, ha, ↓reduceIte]
  have hafter : Dispatches (fun _ => True)
      (finalState (execute B (plan B request) (executeContext request "") hub₁))
      (finalState ((orchestrator B quietCollaborators false).run request hub)) := by
    rw [OrchestratorService.run_eq]
    exact Along.after .refl (fun actions => (idle_dispatches _).afterExecute request "" _ [] actions) hub₁
  obtain ⟨more, _, hmore, _⟩ := hafter
  rw [hexec] at hmore
  exact ⟨run, hmore ▸ List.mem_append_left _ hrun, hparams⟩

/-- The hub in which the tools are open to the role. -/
def openHub (role : String) (toolNames : List String) : ToolHub Unit where
  audit := { uuid4 := pure "", append := pure .none }
  registry := Dict.empty.update (toolNames.map fun toolName => (toolName, openTool role toolName))
  world := ()

theorem open_openHub (role : String) (toolNames : List String) : Open role toolNames (openHub role toolNames) where
  registered toolName h := by
    rw [openHub, Dict.get?_update, ← List.map_reverse,
      List.lookup_graph (openTool role) (List.mem_reverse.2 h), Option.some_or]
  uuid4 := rfl
  append := rfl

/-! ## The condition is exact -/

/-- A bound request runs under the identity of its token. -/
theorem executeContext_bind (request : UnifiedRequest) (auth : AuthContext) (traceId : String) :
    executeContext (bindUnifiedRequestAuth request auth) traceId =
      ⟨.str auth.role, traceId, auth.tenantId, auth.userId, request.policy, some request.toolOverrides⟩ := by
  simp [executeContext, bindUnifiedRequestAuth, Dict.get?_set]

/-- In every deployment, the dictionaries that a run hands to tools and writes
to the audit log carry the identity of the token, if and only if the request
executes no tool or its overrides are honest. -/
theorem identity_kept (B : Builtins) (request : UnifiedRequest) (auth : AuthContext) :
    (∀ (ω : Type) (K : Collaborators ω) (graph : Bool) (hub : ToolHub ω),
      Dispatches (Identified auth) hub (finalState (runAgent B K graph request auth hub))) ↔
    request.policy.autoExecute = false ∨ HonestPlan B auth request.toolOverrides (plan B request) := by
  let bound := bindUnifiedRequestAuth request auth
  have hhonest : ∀ traceId,
      (∀ params ∈ handed B (executeContext bound traceId) (plan B bound), Identified auth params) ↔
      HonestPlan B auth request.toolOverrides (plan B request) := fun traceId =>
    have hc := executeContext_bind request auth traceId
    handed_honest (hc ▸ rfl) (hc ▸ rfl) (hc ▸ rfl) (hc ▸ rfl) fun _ _ h _ hn => plan_params h hn
  constructor
  · intro hall
    cases ha : request.policy.autoExecute with
    | false => exact .inl rfl
    | true =>
      refine .inr ((hhonest "").1 fun params hp => ?_)
      let toolNames := toolNamesOf (plan B bound)
      have hs : ∀ toolName planned, .tool toolName planned ∈ plan B bound → toolName ∈ toolNames :=
        fun toolName planned h => List.mem_filterMap.2 ⟨_, h, rfl⟩
      have hr : (executeContext bound "").userRole = .str auth.role := executeContext_bind request auth "" ▸ rfl
      obtain ⟨run, hrun, rfl⟩ := run_open (show bound.policy.autoExecute = true from ha) hr hs
        (open_openHub auth.role toolNames) hp
      obtain ⟨runs, _, hruns, _, hid, _⟩ := hall Unit quietCollaborators false (openHub auth.role toolNames)
      change run ∈ (finalState (runAgent B quietCollaborators false request auth _)).runs at hrun
      rw [hruns] at hrun
      exact hid run hrun
  · rintro h ω K graph hub
    refine (run_dispatches fun ha traceId => ?_).finalState hub
    rcases h with hno | h
    · rw [show bound.policy.autoExecute = false from hno] at ha
      cases ha
    · exact (hhonest traceId).2 h

/-! ## An override that takes another tenant's name -/

def acmeAuth : AuthContext where
  tenantId := "acme"
  userId := "u1"
  role := "employee"
  sessionId := "s1"
  tokenExp := 1800

/-- A query of the orders of another tenant. -/
def ordersPayload : ToolPayload where
  operation := "query"
  resourceType := "database"
  sql := some "SELECT * FROM orders WHERE tenant_id = 'globex'"

def overridingRequest : UnifiedRequest where
  sessionId := "s1"
  input := "orders"
  input_ne := by decide
  toolPayload := some ordersPayload
  toolOverrides := Dict.empty.set "database_tool" (.obj [("_tenant_id", .str "globex")])

/-- The language's functions on the texts of `overridden_tenant`. -/
def plainBuiltins : Builtins where
  str
    | .str s => s
    | _ => ""
  repr _ := "\x7b'operation': 'query', 'resource_type': 'database', 'resource_path': None, 'url': None, 'sql': " ++
    "\"SELECT * FROM orders WHERE tenant_id = 'globex'\", 'options': \x7b\x7d, 'content': None, " ++
    "'_tenant_id': 'globex', 'confirm_write': False\x7d"
  sha1 _ := "b1bd1110ab3424bd5a885d39e2e9c836f03dcb48"
  lower text := text
  str_str _ := rfl

/-- The database tool on an empty table. -/
def databaseTool : Tool Unit where
  name := "database_tool"
  description := "Run SQL query/execute with confirm-write policy controls."
  requiredRoles := ["employee", "manager", "admin"]
  idempotent := false
  run _ := return ((Dict.empty.set "operation" (.str "query")).set "rows" (.arr [])).set "count" (.int 0)

def databaseHub : ToolHub Unit where
  audit := { uuid4 := pure "event-1", append := pure .none }
  registry := Dict.empty.set "database_tool" databaseTool
  world := ()

/-- The hub after the request of `acmeAuth`. -/
def overriddenHub : ToolHub Unit :=
  finalState (runAgent plainBuiltins { quietCollaborators with newTraceId := return "trace-1" } false
    overridingRequest acmeAuth databaseHub)

/-- The client chooses the tenant that the database tool checks. -/
theorem overridden_tenant :
    overriddenHub.runs.map (fun run => run.params.get? (.str "_tenant_id")) = [some (.str "globex")] ∧
      overriddenHub.audit.log.map (fun event => event.payload.params.bind (·.get? (.str "_tenant_id"))) =
        [some (.str "globex"), none] ∧
      ¬ Dispatches (Identified acmeAuth) databaseHub overriddenHub := by
  have htenant : overriddenHub.runs.map (fun run => run.params.get? (.str "_tenant_id")) =
      [some (.str "globex")] := by
    decide
  refine ⟨htenant, by decide, ?_⟩
  rintro ⟨runs, _, hr, _, hid, _⟩
  rw [hr] at htenant
  obtain ⟨run, hrun, hglobex⟩ := List.mem_map.1 (htenant ▸ List.mem_singleton_self _)
  have hacme := hid run hrun _ (List.mem_cons_self ..)
  rw [hacme] at hglobex
  exact absurd hglobex (by decide)

end Ochestrate
