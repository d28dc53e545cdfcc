import Ochestrate.Framework.SqlTokens
import Ochestrate.Tools.Database

/-!
# Whose rows a statement is about

`_ensure_tenant_scope` looks for the name of a column that the client chooses;
of the caller's tenant it looks only whether there is one
(`ensureTenantScope_ok_iff`). So it accepts a statement for every caller or for none,
however the engine reads it, and a statement is about one tenant at most: the law
holds for all callers of a statement exactly if it is not accepted, and no caller
sends a statement about another tenant exactly if nobody sends it or it names no
tenant (`tenant_scope_iff`). `other_tenant_read` is a caller who reads the rows of another
tenant.
-/

namespace Ochestrate

namespace DatabaseTool

/-- The statement compares `tenant_id` with the tenant, and with no other, for an
engine that reads its comparisons as `compares` says. -/
def ScopedTo (compares : String → String → Prop) (sql tenantId : String) : Prop :=
  compares sql tenantId ∧ ∀ other, other ≠ tenantId → ¬ compares sql other

theorem ScopedTo.unique {compares : String → String → Prop} {sql tenantId tenantId' : String}
    (h : ScopedTo compares sql tenantId) (h' : ScopedTo compares sql tenantId') : tenantId' = tenantId := by
  by_contra hne
  exact h.2 tenantId' hne h'.1

variable {ω : Type} (B : Builtins)

/-- Every tenant's call is accepted or none's. -/
theorem ensureTenantScope_ok_iff {sql tenantId tenantColumn : String} (h : tenantId ≠ "") :
    ensureTenantScope B sql tenantId tenantColumn = .ok ⟨⟩ ↔
      literalForm B sql tenantColumn = true ∨ parameterForm B sql tenantColumn = true := by
  unfold ensureTenantScope
  rw [if_neg h]
  cases literalForm B sql tenantColumn with
  | true => simp
  | false =>
    cases parameterForm B sql tenantColumn with
    | true => simp
    | false => simp

/-- The statement that a call sends. -/
theorem sent_iff (database : DatabaseTool ω) (params : Params) (db : Database ω) (Q : String → Prop) :
    (∀ statements, (finalState (database.run B params db)).statements = db.statements ++ statements →
        ∀ statement ∈ statements, Q statement) ↔ (database.sends B params → Q (sqlOf B params)) := by
  have hsent : ∀ statements, (finalState (database.run B params db)).statements = db.statements ++ statements ↔
      (database.sends B params ∧ statements = [sqlOf B params]) ∨ ¬ database.sends B params ∧ statements = [] := by
    intro statements
    obtain ⟨exc, hpolicies, hrun⟩ | ⟨-, hsends, exc, -, hrun⟩ | ⟨hsends, hstatements⟩ :=
      run_cases B database params db
    · have hsends : ¬ database.sends B params := by
        intro hsends
        rw [hsends.1] at hpolicies
        cases hpolicies
      rw [hrun]
      simp [hsends]
    · rw [hrun]
      simp [hsends]
    · rw [hstatements]
      simp [hsends, eq_comm]
  simp only [hsent]
  by_cases hsends : database.sends B params
  · simp [hsends]
  · simp [hsends]

/-! ## One call, by any caller -/

/-- The parameters as the hub hands them over for a caller of the tenant. -/
def asTenant (params : Params) (tenantId : String) : Params := params.set (.str "_tenant_id") (.str tenantId)

theorem tenantOf_asTenant (params : Params) (tenantId : String) :
    tenantOf B (asTenant params tenantId) = strip tenantId := by
  have hvalue : orElse (some (.str tenantId)) (.str "") = .str tenantId := by
    by_cases h : tenantId = ""
    · simp [orElse, Json.truthy, h]
    · simp [orElse, Json.truthy, h]
  rw [tenantOf, asTenant, Dict.get?_set_self, hvalue, B.str_str]

theorem get?_asTenant (params : Params) (tenantId : String) {name : String} (h : name ≠ "_tenant_id") :
    (asTenant params tenantId).get? (.str name) = params.get? (.str name) :=
  Dict.get?_set_ne _ _ (by simpa using h)

theorem sqlOf_asTenant (params : Params) (tenantId : String) : sqlOf B (asTenant params tenantId) = sqlOf B params := by
  rw [sqlOf, get?_asTenant _ _ (by decide), sqlOf]

theorem confirmed_asTenant (security : ToolSecurityConfig) (params : Params) {tenantId tenantId' : String}
    (h : tenantId ≠ "") (h' : tenantId' ≠ "") :
    confirmed security (asTenant params tenantId) = confirmed security (asTenant params tenantId') := by
  by_cases hfield : security.dbConfirmField = "_tenant_id"
  · simp [confirmed, asTenant, hfield, Json.truthy, h, h']
  · rw [confirmed, get?_asTenant _ _ hfield, confirmed, get?_asTenant _ _ hfield]

/-- The checks of a call are those of any other caller. -/
theorem policies_asTenant (security : ToolSecurityConfig) (params : Params) {tenantId tenantId' : String}
    (h : strip tenantId ≠ "") (h' : strip tenantId' ≠ "") :
    policies B security (asTenant params tenantId) = policies B security (asTenant params tenantId') := by
  have hne : ∀ {text : String}, strip text ≠ "" → text ≠ "" := by
    rintro text htext rfl
    exact htext (by decide)
  have hcolumn : ∀ text, tenantColumnOf B (asTenant params text) = tenantColumnOf B params := by
    intro text
    rw [tenantColumnOf, get?_asTenant _ _ (by decide), tenantColumnOf]
  have hscope : ∀ column, ensureTenantScope B (sqlOf B params) (strip tenantId) column =
      ensureTenantScope B (sqlOf B params) (strip tenantId') column := by
    intro column
    rw [ensureTenantScope, if_neg h, ensureTenantScope, if_neg h']
  have hguard : writeGuard security (asTenant params tenantId) = writeGuard security (asTenant params tenantId') := by
    funext sql
    rw [writeGuard, confirmed_asTenant security params (hne h) (hne h'), writeGuard]
  unfold policies
  simp only [sqlOf_asTenant, hcolumn, tenantOf_asTenant, hguard, hscope]

theorem sends_asTenant (database : DatabaseTool ω) (params : Params) {tenantId tenantId' : String}
    (h : strip tenantId ≠ "") (h' : strip tenantId' ≠ "") :
    database.sends B (asTenant params tenantId) ↔ database.sends B (asTenant params tenantId') := by
  have hoperation : ∀ text, operationOf B (asTenant params text) = operationOf B params := by
    intro text
    rw [operationOf, get?_asTenant _ _ (by decide), operationOf]
  unfold sends
  rw [policies_asTenant B database.security params h h', hoperation, hoperation]

/-! ## The law for all callers -/

/-- A caller's statement that is accepted by its literal form is about the caller's
tenant. -/
def LiteralScoped (compares : String → String → Prop) (sql tenantColumn tenantId : String) : Prop :=
  ensureTenantScope B sql tenantId tenantColumn = .ok ⟨⟩ → literalForm B sql tenantColumn = true →
    ScopedTo compares sql tenantId

/-- The statements that a caller's call sends compare with no other tenant. -/
def SendsOwn (compares : String → String → Prop) (database : DatabaseTool ω) (params : Params) (db : Database ω)
    (tenantId : String) : Prop :=
  ∀ statements,
    (finalState (database.run B (asTenant params tenantId) db)).statements = db.statements ++ statements →
      ∀ statement ∈ statements, ∀ other, other ≠ strip tenantId → ¬ compares statement other

variable {B} {compares : String → String → Prop}

/-- A statement with the literal form is as it should be for one caller at most. -/
theorem LiteralScoped.unique {sql tenantColumn tenantId tenantId' : String} (hform : literalForm B sql tenantColumn = true)
    (htenant : tenantId ≠ "") (htenant' : tenantId' ≠ "") (h : LiteralScoped B compares sql tenantColumn tenantId)
    (h' : LiteralScoped B compares sql tenantColumn tenantId') : tenantId = tenantId' := by
  have hscoped := h ((ensureTenantScope_ok_iff B htenant).2 (.inl hform)) hform
  have hscoped' := h' ((ensureTenantScope_ok_iff B htenant').2 (.inl hform)) hform
  exact hscoped'.unique hscoped

theorem sendsOwn_iff {database : DatabaseTool ω} {params : Params} {db : Database ω} {tenantId : String} :
    SendsOwn B compares database params db tenantId ↔ (database.sends B (asTenant params tenantId) →
      ∀ other, other ≠ strip tenantId → ¬ compares (sqlOf B params) other) := by
  rw [← sqlOf_asTenant B params tenantId]
  exact sent_iff B database (asTenant params tenantId) db fun statement =>
    ∀ other, other ≠ strip tenantId → ¬ compares statement other

/-- A statement that is sent and names a tenant is as it should be for one caller at
most. -/
theorem SendsOwn.unique {database : DatabaseTool ω} {params : Params} {db : Database ω}
    {sender text tenantId tenantId' : String} (hsender : strip sender ≠ "")
    (hsends : database.sends B (asTenant params sender)) (htext : compares (sqlOf B params) text)
    (htenant : strip tenantId ≠ "") (htenant' : strip tenantId' ≠ "")
    (h : SendsOwn B compares database params db tenantId) (h' : SendsOwn B compares database params db tenantId') :
    strip tenantId = strip tenantId' := by
  have hnamed : ∀ tenantId, strip tenantId ≠ "" → SendsOwn B compares database params db tenantId →
      text = strip tenantId := by
    intro tenantId htenant hown
    by_contra hne
    -- every caller sends what one caller sends
    have hsent := (sends_asTenant B database params hsender htenant).1 hsends
    exact sendsOwn_iff.1 hown hsent text hne htext
  exact (hnamed tenantId htenant h).symm.trans (hnamed tenantId' htenant' h')

variable (B)

/-- However the engine reads the comparisons of a statement: every caller whose
statement is accepted by its literal form is the one that it is about, exactly if it
has no such form; if it has, this is so for one caller at most. And no caller sends a
statement about another tenant, exactly if no caller sends it or it names no tenant;
otherwise only the callers of one tenant do not. -/
theorem tenant_scope_iff (compares : String → String → Prop) :
    (∀ sql tenantColumn,
      ((∀ tenantId, tenantId ≠ "" → LiteralScoped B compares sql tenantColumn tenantId) ↔
        literalForm B sql tenantColumn = false) ∧
      (literalForm B sql tenantColumn = true → ∀ tenantId tenantId', tenantId ≠ "" → tenantId' ≠ "" →
        LiteralScoped B compares sql tenantColumn tenantId → LiteralScoped B compares sql tenantColumn tenantId' →
          tenantId = tenantId')) ∧
      ∀ (database : DatabaseTool ω) (params : Params) (db : Database ω),
        ((∀ tenantId, strip tenantId ≠ "" → SendsOwn B compares database params db tenantId) ↔
          (∀ tenantId, strip tenantId ≠ "" → ¬ database.sends B (asTenant params tenantId)) ∨
            ∀ text, ¬ compares (sqlOf B params) text) ∧
        ((∃ tenantId, strip tenantId ≠ "" ∧ database.sends B (asTenant params tenantId)) →
          (∃ text, compares (sqlOf B params) text) → ∀ tenantId tenantId', strip tenantId ≠ "" → strip tenantId' ≠ "" →
            SendsOwn B compares database params db tenantId → SendsOwn B compares database params db tenantId' →
              strip tenantId = strip tenantId') := by
  constructor
  · intro sql tenantColumn
    refine ⟨⟨?_, ?_⟩, fun hform tenantId tenantId' htenant htenant' => LiteralScoped.unique hform htenant htenant'⟩
    · intro hlaw
      rw [← Bool.not_eq_true]
      intro hform
      have hone := LiteralScoped.unique hform (by decide) (by decide) (hlaw "a" (by decide)) (hlaw "b" (by decide))
      exact absurd hone (by decide)
    · intro hform tenantId _ _ hform'
      rw [hform] at hform'
      cases hform'
  · intro database params db
    refine ⟨⟨?_, ?_⟩, ?_⟩
    · intro hlaw
      by_contra hneither
      obtain ⟨hsends, hcompares⟩ := not_or.1 hneither
      push Not at hsends hcompares
      obtain ⟨sender, hsender, hsends⟩ := hsends
      obtain ⟨text, htext⟩ := hcompares
      have hone := SendsOwn.unique hsender hsends htext (by decide) (by decide) (hlaw "a" (by decide))
        (hlaw "b" (by decide))
      exact absurd hone (by decide)
    · rintro (hsends | hcompares) tenantId htenant
      · exact sendsOwn_iff.2 fun hsent => absurd hsent (hsends tenantId htenant)
      · exact sendsOwn_iff.2 fun _ other _ => hcompares other
    · rintro ⟨sender, hsender, hsends⟩ ⟨text, htext⟩ tenantId tenantId' htenant htenant'
      exact SendsOwn.unique hsender hsends htext htenant htenant'

/-- A caller of `acme` who asks for the orders of `globex`. -/
def otherTenantQuery : Params :=
  Dict.empty.update [(.str "operation", .str "query"),
    (.str "sql", .str "SELECT * FROM orders WHERE tenant_id = 'globex'"), (.str "_tenant_id", .str "acme")]

/-- The statement is accepted by its literal form, for a tenant that it does not
name, and reaches the engine. -/
theorem other_tenant_read :
    tenantOf asciiBuiltins otherTenantQuery = "acme" ∧
      openDatabase.security.dbRequireTenantScope = true ∧
      ensureTenantScope asciiBuiltins "SELECT * FROM orders WHERE tenant_id = 'globex'" "acme" "tenant_id" = .ok ⟨⟩ ∧
      literalForm asciiBuiltins "SELECT * FROM orders WHERE tenant_id = 'globex'" "tenant_id" = true ∧
      ¬ ScopedTo (Sql.Compares "tenant_id") "SELECT * FROM orders WHERE tenant_id = 'globex'" "acme" ∧
      ScopedTo (Sql.Compares "tenant_id") "SELECT * FROM orders WHERE tenant_id = 'globex'" "globex" ∧
      ∃ output db, openDatabase.run asciiBuiltins otherTenantQuery ⟨(), []⟩ = .ok output db ∧
        db.statements = ["SELECT * FROM orders WHERE tenant_id = 'globex'"] := by
  have hliterals : Sql.comparedLiterals "tenant_id" "SELECT * FROM orders WHERE tenant_id = 'globex'" = ["globex"] := by
    decide
  have hglobex : ScopedTo (Sql.Compares "tenant_id") "SELECT * FROM orders WHERE tenant_id = 'globex'" "globex" := by
    unfold ScopedTo Sql.Compares
    rw [hliterals]
    exact ⟨List.mem_singleton_self _, fun other hother hmem => hother (List.mem_singleton.1 hmem)⟩
  refine ⟨by decide, by decide, by decide, by decide, fun hacme => ?_, hglobex, _, _, rfl, by decide⟩
  exact absurd (hacme.unique hglobex) (by decide)

/-- A statement with a parameter in a list is accepted, and sent, without a literal. -/
def ownTenantQuery : Params :=
  Dict.empty.update [(.str "operation", .str "query"),
    (.str "sql", .str "SELECT id FROM items WHERE tenant_id IN (:tenant_id)")]

/-- For every caller it is as it should be. -/
theorem own_tenant_read :
    openDatabase.sends asciiBuiltins (asTenant ownTenantQuery "acme") ∧
      literalForm asciiBuiltins "SELECT id FROM items WHERE tenant_id IN (:tenant_id)" "tenant_id" = false ∧
      ∀ tenantId, strip tenantId ≠ "" →
        SendsOwn asciiBuiltins (Sql.Compares "tenant_id") openDatabase ownTenantQuery ⟨(), []⟩ tenantId := by
  refine ⟨⟨rfl, ⟨_, rfl⟩, by decide⟩, by decide, ?_⟩
  refine ((tenant_scope_iff asciiBuiltins (Sql.Compares "tenant_id")).2 openDatabase ownTenantQuery ⟨(), []⟩).1.2 (.inr ?_)
  have hliterals : Sql.comparedLiterals "tenant_id" (sqlOf asciiBuiltins ownTenantQuery) = [] := by decide
  intro text htext
  rw [Sql.Compares, hliterals] at htext
  cases htext

end DatabaseTool

end Ochestrate
