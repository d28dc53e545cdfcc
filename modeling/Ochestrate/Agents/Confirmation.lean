import Ochestrate.Agents.Outcomes
import Ochestrate.Tools.Database

/-!
# Whether the policy confirms a write

The executor writes `policy.confirm_write` under the key that the parameters
name, or under `confirm_write`; the database tool reads the key that the security
configuration names. `confirmation_iff` says for which configurations the guard
passes a write exactly if the policy confirms it; in `renamed_field_refused` the
configuration names another key and a confirmed write is refused.
-/

namespace Ochestrate

open ToolHub ExecutorAgent DatabaseTool

namespace ExecutorAgent

variable {ω : Type} (B : Builtins)

/-- A call adds at most one run, with the dictionary of the call. -/
theorem invoke_runs {hub : ToolHub ω} {call : ToolCall} {r : EStateM.Result Exc (ToolHub ω) ToolInvokeResult}
    (h : Invoked hub call r) :
    (finalState r).runs = hub.runs ∨ ∃ output, (finalState r).runs = hub.runs ++ [⟨call, call.injected, output⟩] := by
  cases h with
  | unregistered => exact .inl rfl
  | denied => exact .inl rfl
  | hit => exact .inl rfl
  | raised => exact .inr ⟨none, rfl⟩
  | @unrecorded _ output _ _ _ _ _ _ _ hrecord =>
    obtain ⟨-, hrecorded⟩ := recorded_error hrecord
    exact .inr ⟨some output, hrecorded.runs⟩
  | @returned _ output _ _ _ _ _ _ _ hrecord =>
    obtain ⟨-, hrecorded⟩ := recorded_ok hrecord
    exact .inr ⟨some output, (keep_runs ..).trans hrecorded.runs⟩

/-- The runs that calls add are theirs. -/
theorem runs_afterCalls (calls : List ToolCall) (hub : ToolHub ω) :
    ∃ runs, (afterCalls B calls hub).runs = hub.runs ++ runs ∧
      ∀ run ∈ runs, run.call ∈ calls ∧ run.params = run.call.injected := by
  induction calls generalizing hub with
  | nil => exact ⟨[], (List.append_nil _).symm, by simp⟩
  | cons call calls ih =>
    obtain ⟨runs, hruns, hmem⟩ := ih (finalState (invoke B call hub))
    have hcons : ∀ run ∈ runs, run.call ∈ call :: calls ∧ run.params = run.call.injected :=
      fun run hrun => ⟨List.mem_cons_of_mem _ (hmem run hrun).1, (hmem run hrun).2⟩
    obtain hone | ⟨output, hone⟩ := invoke_runs (invoke_cases B hub call)
    · exact ⟨runs, by rw [← hone]; exact hruns, hcons⟩
    · refine ⟨⟨call, call.injected, output⟩ :: runs, ?_, ?_⟩
      · show (afterCalls B calls (finalState (invoke B call hub))).runs = _
        rw [hruns, hone, List.append_assoc]
        rfl
      · exact List.forall_mem_cons.2 ⟨⟨List.mem_cons_self .., rfl⟩, hcons⟩

/-- The runs that an execution adds are of its calls. -/
theorem runs_execute (steps : List Step) (c : ExecuteContext) (hub : ToolHub ω) :
    ∃ runs, (finalState (execute B steps c hub)).runs = hub.runs ++ runs ∧
      ∀ run ∈ runs, run.call ∈ (callsOf B c steps).1 ∧ run.params = run.call.injected := by
  cases hauto : c.policy.autoExecute with
  | false =>
    refine ⟨[], ?_, by simp⟩
    unfold execute
    rw [hauto, List.append_nil]
    rfl
  | true =>
    rw [execute_eq B c steps hub hauto]
    cases (callsOf B c steps).2 <;> exact runs_afterCalls B _ hub

/-! ## The key of the confirmation -/

/-- The entry that the hub adds under a name. -/
def callerContext (c : ExecuteContext) (name : String) : Option Json :=
  if name = "_tenant_id" then some (.str c.tenantId)
  else if name = "_user_id" then some (.str c.userId)
  else if name = "_user_role" then some c.userRole
  else none

/-- Neither the parameters nor the override name a confirm field or one of the
keys that confirm a write. -/
structure Unconfirmed (security : ToolSecurityConfig) (c : ExecuteContext) (planned : Params) : Prop where
  planned : ∀ name ∈ ["confirm_field", "confirm_write", security.dbConfirmField], planned.get? (.str name) = none
  override : ∀ pairs, (overrideOf c "database_tool").updatePairs = .ok pairs →
    ∀ name ∈ ["confirm_field", "confirm_write", security.dbConfirmField], Key.str name ∉ pairs.map Prod.fst

/-- The guard reads what the policy says. -/
def ConfirmationAgrees (security : ToolSecurityConfig) (c : ExecuteContext) : Prop :=
  if security.dbWriteProtectionEnabled then
    security.dbConfirmField = "confirm_write" ∨
      ((callerContext c security.dbConfirmField).getD (.bool false)).truthy = c.policy.confirmWrite
  else c.policy.confirmWrite = true

instance (security : ToolSecurityConfig) (c : ExecuteContext) : Decidable (ConfirmationAgrees security c) := by
  unfold ConfirmationAgrees
  infer_instance

/-- The context is added where the call's parameters have none. -/
theorem injected_get? (c : ExecuteContext) (toolName name : String) (params : Params) :
    (toolCall B c toolName params).injected.get? (.str name) = (params.get? (.str name)).or (callerContext c name) := by
  simp only [ToolCall.injected, toolCall, Dict.get?_setDefault, callerContext, Key.str.injEq]
  by_cases hrole : name = "_user_role"
  · subst hrole
    cases params.get? (.str "_user_role") <;> simp
  · by_cases huser : name = "_user_id"
    · subst huser
      cases params.get? (.str "_user_id") <;> simp
    · by_cases htenant : name = "_tenant_id"
      · subst htenant
        cases params.get? (.str "_tenant_id") <;> simp
      · simp [hrole, huser, htenant]

section Unconfirmed

variable {security : ToolSecurityConfig} {c : ExecuteContext} {planned : Params} {pairs : List (Key × Json)}

/-- What the guard reads in the dictionary of a step. -/
theorem confirmed_injected (h : Unconfirmed security c planned)
    (hpairs : (overrideOf c "database_tool").updatePairs = .ok pairs) :
    confirmed security (toolCall B c "database_tool" (merge B c "database_tool" planned pairs)).injected =
      if security.dbConfirmField = "confirm_write" then c.policy.confirmWrite
      else ((callerContext c security.dbConfirmField).getD (.bool false)).truthy := by
  have hnone : ∀ name ∈ ["confirm_field", "confirm_write", security.dbConfirmField],
      (planned.update pairs).get? (.str name) = none := fun name hname => by
    rw [Dict.get?_update_of_notMem _ (h.override pairs hpairs name hname), h.planned name hname]
  have hkey : confirmKey B (planned.update pairs) = .str "confirm_write" := by
    rw [confirmKey, hnone "confirm_field" (by simp), Option.getD_none, B.str_str]
  have hmerge : (merge B c "database_tool" planned pairs).get? (.str security.dbConfirmField) =
      if security.dbConfirmField = "confirm_write" then some (.bool c.policy.confirmWrite) else none := by
    unfold merge
    simp only [↓reduceIte, hkey, Dict.get?_setDefault, Key.str.injEq, hnone "confirm_write" (by simp),
      hnone security.dbConfirmField (by simp), Option.getD_none]
  rw [confirmed, injected_get?, hmerge]
  split <;> rfl

/-- The guard passes the dictionary of a writing step as the policy says exactly
if the configuration agrees. -/
theorem writeGuard_injected_iff (h : Unconfirmed security c planned)
    (hpairs : (overrideOf c "database_tool").updatePairs = .ok pairs) {sql : String} (hsql : isWriteSql sql = true) :
    ((writeGuard security (toolCall B c "database_tool" (merge B c "database_tool" planned pairs)).injected sql =
        .ok ⟨⟩) ↔ c.policy.confirmWrite = true) ↔ ConfirmationAgrees security c := by
  unfold writeGuard ConfirmationAgrees
  rw [hsql, Bool.and_true, confirmed_injected B h hpairs]
  cases security.dbWriteProtectionEnabled with
  | false => simp
  | true =>
    by_cases hfield : security.dbConfirmField = "confirm_write"
    · simp [hfield]
    · simp only [↓reduceIte, hfield, false_or]
      cases ((callerContext c security.dbConfirmField).getD (.bool false)).truthy with
      | false => cases c.policy.confirmWrite <;> simp
      | true => cases c.policy.confirmWrite <;> simp

end Unconfirmed

/-- In an execution whose database steps and overrides name no confirmation,
the guard passes every write exactly as the policy says if and only if the
security configuration names the executor's key, or a key whose value in the
hub's own context says the same, or protects nothing and all is confirmed. -/
theorem confirmation_iff (security : ToolSecurityConfig) (c : ExecuteContext) (steps : List Step)
    (hub : ToolHub ω) (hsteps : ∀ planned, .tool "database_tool" planned ∈ steps → Unconfirmed security c planned) :
    ∃ runs, (finalState (execute B steps c hub)).runs = hub.runs ++ runs ∧
      ∀ run ∈ runs, run.call.toolName = "database_tool" → isWriteSql (sqlOf B run.params) = true →
        ((writeGuard security run.params (sqlOf B run.params) = .ok ⟨⟩ ↔ c.policy.confirmWrite = true) ↔
          ConfirmationAgrees security c) := by
  obtain ⟨runs, hruns, hmem⟩ := runs_execute B steps c hub
  refine ⟨runs, hruns, fun run hrun hname hwrite => ?_⟩
  obtain ⟨hcall, hparams⟩ := hmem run hrun
  obtain ⟨toolName, planned, pairs, hstep, hpairs, hcall⟩ := mem_callsOf B c hcall
  have htool : toolName = "database_tool" := by
    rw [hcall] at hname
    exact hname
  subst htool
  rw [hparams, hcall] at hwrite ⊢
  exact writeGuard_injected_iff B (hsteps planned hstep) hpairs hwrite

/-! ## A deletion -/

def deletion : Params :=
  Dict.empty.update [(.str "operation", .str "execute"), (.str "sql", .str "DELETE FROM items WHERE tenant_id = 'acme'")]

/-- The functions of the language on the texts of a confirmed `deletion`. -/
def deletionBuiltins : Builtins :=
  { asciiBuiltins with
    repr := fun _ => "\x7b'operation': 'execute', 'sql': \"DELETE FROM items WHERE tenant_id = 'acme'\", " ++
      "'confirm_write': True\x7d"
    sha1 := fun _ => "6f4a447731d7bec396c8bfbf538b04345b708fd5" }

/-- An employee whose policy confirms writes. -/
def confirmingContext : ExecuteContext where
  userRole := .str "employee"
  traceId := "trace-1"
  tenantId := "acme"
  userId := "u1"
  policy := { confirmWrite := true }

/-- A database whose security configuration names a confirm field. -/
def databaseWith (field : String) : DatabaseTool Unit :=
  { openDatabase with security := { openDatabase.security with dbConfirmField := field } }

def databaseHub (field : String) : ToolHub (Database Unit) :=
  fresh (Dict.empty.set "database_tool" ((databaseWith field).tool deletionBuiltins)) (pure "event-1") (pure .none) ⟨(), []⟩

theorem deletion_unconfirmed {field : String} (h : field ∈ ["confirm_write", "approve"]) :
    Unconfirmed (databaseWith field).security confirmingContext deletion where
  planned name hname := by
    simp only [List.mem_cons, List.not_mem_nil, or_false] at h
    obtain rfl | rfl := h
    · revert name
      decide
    · revert name
      decide
  override pairs hpairs := by
    have hnil : pairs = [] := (Except.ok.inj hpairs).symm
    simp [hnil]

/-- With the default field the deletion is executed as the policy says. -/
theorem deletion_confirmed :
    ∃ runs, (finalState (execute deletionBuiltins [.tool "database_tool" deletion] confirmingContext
          (databaseHub "confirm_write"))).runs = (databaseHub "confirm_write").runs ++ runs ∧
      ∀ run ∈ runs, run.call.toolName = "database_tool" → isWriteSql (sqlOf deletionBuiltins run.params) = true →
        ((writeGuard (databaseWith "confirm_write").security run.params (sqlOf deletionBuiltins run.params) = .ok ⟨⟩ ↔
            confirmingContext.policy.confirmWrite = true) ↔
          ConfirmationAgrees (databaseWith "confirm_write").security confirmingContext) := by
  refine confirmation_iff deletionBuiltins (databaseWith "confirm_write").security confirmingContext
    [.tool "database_tool" deletion] (databaseHub "confirm_write") fun planned hstep => ?_
  obtain rfl : planned = deletion := by simpa using hstep
  exact deletion_unconfirmed (by simp)

/-- With another field the same deletion is refused, though the policy confirms
it. -/
theorem renamed_field_refused :
    Unconfirmed (databaseWith "approve").security confirmingContext deletion ∧
      confirmingContext.policy.confirmWrite = true ∧
      ∃ actions hub run, execute deletionBuiltins [.tool "database_tool" deletion] confirmingContext
          (databaseHub "approve") = .ok actions hub ∧
        actions.map (·.errorCode) = [some "POLICY_DENIED"] ∧ hub.runs = [run] ∧ hub.world.statements = [] ∧
        isWriteSql (sqlOf deletionBuiltins run.params) = true ∧
        writeGuard (databaseWith "approve").security run.params (sqlOf deletionBuiltins run.params) =
          .error ⟨.permissionError, "write SQL requires explicit 'approve=true'"⟩ := by
  refine ⟨deletion_unconfirmed (by simp), rfl, _, _, _, rfl, by decide, rfl, by decide, by decide, by decide⟩

end ExecutorAgent

end Ochestrate
