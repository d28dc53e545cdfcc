import Ochestrate.Framework.Along
import Ochestrate.Framework.Strings
import Ochestrate.Tools.Base
import Ochestrate.Tools.Security

/-!
# The database tool

`app/tools/database_tool.py`. The checks of a call (`policies`) come before the
engine is made. `statements` is a history variable: the statements that were
sent to the engine, whether it took them or raised. `statements_run` says which
statement a call sends.
-/

namespace Ochestrate

/-- What the source uses of a SQLAlchemy engine: the rows of a statement, and
its `rowcount`. -/
structure Engine (ω : Type) where
  query : String → EStateM Exc ω (List (Dict String Json))
  execute : String → EStateM Exc ω (Option Int)

/-- The world outside the tool, with the statements sent so far. -/
structure Database (ω : Type) where
  world : ω
  statements : List String := []

/-- `createEngine` is `create_engine(dsn)`, with the message of an exception. -/
structure DatabaseTool (ω : Type) where
  dsn : String
  security : ToolSecurityConfig
  createEngine : String → Except String (Engine ω)

namespace DatabaseTool

variable {ω : Type} (B : Builtins)

/-! ## Policies -/

/-- The group of `re.match(r"^\s*([a-zA-Z]+)", sql)`, empty without a match. -/
def firstKeyword (sql : List Char) : List Char := (sql.dropWhile isSpace).takeWhile Char.isAlpha

def writeKeywords : List String :=
  ["INSERT", "UPDATE", "DELETE", "REPLACE", "MERGE", "CREATE", "ALTER", "DROP", "TRUNCATE", "GRANT", "REVOKE"]

/-- `_is_write_sql` -/
def isWriteSql (sql : String) : Bool := .ofList ((firstKeyword sql.toList).map Char.toUpper) ∈ writeKeywords

/-- The statement with single blanks, in lower case. -/
def normalized (sql : String) : String := " ".intercalate (split (B.lower sql))

/-- The column is followed by an equals sign. -/
def literalForm (sql tenantColumn : String) : Bool :=
  let column := B.lower tenantColumn
  containsText (column ++ " =") (normalized B sql) || containsText (column ++ "=") (normalized B sql)

/-- The column is the name of a parameter. -/
def parameterForm (sql tenantColumn : String) : Bool :=
  let column := B.lower tenantColumn
  containsText (":" ++ column) (normalized B sql) || containsText ("%(" ++ column ++ ")s") (normalized B sql)

/-- `_ensure_tenant_scope` -/
def ensureTenantScope (sql tenantId tenantColumn : String) : Except Exc Unit :=
  if tenantId = "" then .error ⟨.permissionError, "tenant scope check failed: tenant_id is required"⟩
  else if literalForm B sql tenantColumn then .ok ⟨⟩
  else if parameterForm B sql tenantColumn then .ok ⟨⟩
  else .error ⟨.permissionError, "tenant scope check failed: missing '" ++ tenantColumn ++ "' condition"⟩

/-- The statement of the parameters. -/
def sqlOf (params : Params) : String := strip (B.str (orElse (params.get? (.str "sql")) (.str "")))

def operationOf (params : Params) : String := B.lower (B.str ((params.get? (.str "operation")).getD (.str "query")))

def tenantOf (params : Params) : String := strip (B.str (orElse (params.get? (.str "_tenant_id")) (.str "")))

/-- The tenant column of the options; what is not a dictionary has no `get`. -/
def tenantColumnOf (params : Params) : Except Exc String :=
  match orElse (params.get? (.str "options")) (.obj []) with
  | .obj fields => .ok (strip (B.str ((fields.lookup "tenant_column").getD (.str "tenant_id"))))
  | value => .error ⟨.other, "'" ++ value.typeName ++ "' object has no attribute 'get'"⟩

/-- `bool(params.get(self._security.db_confirm_field, False))` -/
def confirmed (security : ToolSecurityConfig) (params : Params) : Bool :=
  ((params.get? (.str security.dbConfirmField)).getD (.bool false)).truthy

/-- The guard of writes. -/
def writeGuard (security : ToolSecurityConfig) (params : Params) (sql : String) : Except Exc Unit :=
  if security.dbWriteProtectionEnabled && isWriteSql sql then
    if confirmed security params then .ok ⟨⟩
    else .error ⟨.permissionError, "write SQL requires explicit '" ++ security.dbConfirmField ++ "=true'"⟩
  else .ok ⟨⟩

/-- What a call checks before it makes the engine. -/
def policies (security : ToolSecurityConfig) (params : Params) : Except Exc Unit := do
  let sql := sqlOf B params
  if sql = "" then throw ⟨.valueError, "sql is required"⟩
  let tenantColumn ← tenantColumnOf B params
  writeGuard security params sql
  if security.dbRequireTenantScope then ensureTenantScope B sql (tenantOf B params) tenantColumn

/-! ## Calls -/

/-- A statement is sent. -/
def send {α : Type} (sql : String) (x : EStateM Exc ω α) : EStateM Exc (Database ω) α := do
  modify fun db => { db with statements := db.statements ++ [sql] }
  zoomed (·.world) (fun db world => { db with world }) x

/-- `_get_engine` -/
def getEngine (tool : DatabaseTool ω) : Except Exc (Engine ω) :=
  match tool.createEngine tool.dsn with
  | .ok engine => .ok engine
  | .error message => .error ⟨.other, message⟩

def run (tool : DatabaseTool ω) (params : Params) : EStateM Exc (Database ω) (Dict String Json) := do
  MonadExcept.ofExcept (policies B tool.security params)
  let engine ← MonadExcept.ofExcept tool.getEngine
  let operation := operationOf B params
  let sql := sqlOf B params
  if operation = "query" then
    let rows ← send sql (engine.query sql)
    return Dict.empty.update [("operation", .str "query"), ("rows", .arr (rows.map .ofDict)), ("count", .int rows.length)]
  else if operation = "execute" then
    let rowcount ← send sql (engine.execute sql)
    return Dict.empty.update [("operation", .str "execute"), ("affected_rows", .int (rowcount.getD 0))]
  else throw ⟨.valueError, "unsupported operation '" ++ operation ++ "'"⟩

/-- A call sends its statement. -/
def sends (tool : DatabaseTool ω) (params : Params) : Prop :=
  policies B tool.security params = .ok ⟨⟩ ∧ (∃ engine, tool.createEngine tool.dsn = .ok engine) ∧
    operationOf B params ∈ ["query", "execute"]

theorem statements_send {α : Type} (sql : String) (x : EStateM Exc ω α) (db : Database ω) :
    (finalState (send sql x db)).statements = db.statements ++ [sql] := by
  unfold send
  rw [modify_bind]
  unfold zoomed
  dsimp only
  cases x db.world <;> rfl

/-- What follows a statement sends no other. -/
theorem statements_send_map {α β : Type} (sql : String) (x : EStateM Exc ω α) (f : α → β) (db : Database ω) :
    (finalState ((send sql x >>= fun a => pure (f a)) db)).statements = db.statements ++ [sql] := by
  have hsend := statements_send sql x db
  cases hx : send sql x db with
  | ok a db' =>
    rw [hx] at hsend
    rw [bind_ok hx]
    exact hsend
  | error exc db' =>
    rw [hx] at hsend
    rw [bind_error hx]
    exact hsend

/-- A call is refused by the policies, fails before its statement is sent, or
sends it. -/
theorem run_cases (tool : DatabaseTool ω) (params : Params) (db : Database ω) :
    (∃ exc, policies B tool.security params = .error exc ∧ tool.run B params db = .error exc db) ∨
      (policies B tool.security params = .ok ⟨⟩ ∧ ¬ tool.sends B params ∧
        ∃ exc, exc.type ≠ .permissionError ∧ tool.run B params db = .error exc db) ∨
      tool.sends B params ∧ (finalState (tool.run B params db)).statements = db.statements ++ [sqlOf B params] := by
  unfold run
  cases hpolicies : policies B tool.security params with
  | error exc => exact .inl ⟨exc, rfl, ofExcept_error_bind ..⟩
  | ok =>
    rw [ofExcept_ok_bind]
    refine .inr ?_
    cases hengine : tool.createEngine tool.dsn with
    | error message =>
      have hget : tool.getEngine = .error ⟨.other, message⟩ := by rw [getEngine, hengine]
      rw [hget, ofExcept_error_bind]
      refine .inl ⟨rfl, fun hsends => ?_, _, ?_, rfl⟩
      · obtain ⟨-, ⟨engine, hok⟩, -⟩ := hsends
        rw [hengine] at hok
        cases hok
      · simp
    | ok engine =>
      have hget : tool.getEngine = .ok engine := by rw [getEngine, hengine]
      rw [hget, ofExcept_ok_bind]
      by_cases hquery : operationOf B params = "query"
      · refine .inr ⟨⟨hpolicies, ⟨engine, hengine⟩, by simp [hquery]⟩, ?_⟩
        simp only [hquery, ↓reduceIte]
        exact statements_send_map ..
      · by_cases hexecute : operationOf B params = "execute"
        · refine .inr ⟨⟨hpolicies, ⟨engine, hengine⟩, by simp [hexecute]⟩, ?_⟩
          simp only [hexecute, ↓reduceIte]
          exact statements_send_map ..
        · refine .inl ⟨rfl, fun hsends => ?_,
            ⟨.valueError, "unsupported operation '" ++ operationOf B params ++ "'"⟩, by simp, ?_⟩
          · simp [sends, hquery, hexecute] at hsends
          · simp only [hquery, hexecute, ↓reduceIte]
            rfl

/-- The tool as the hub sees it. -/
def tool (database : DatabaseTool ω) : Tool (Database ω) where
  name := "database_tool"
  description := "Run SQL query/execute with confirm-write policy controls."
  requiredRoles := ["employee", "manager", "admin"]
  idempotent := false
  run := database.run B

/-! ## A database that takes every statement -/

def openDatabase : DatabaseTool Unit where
  dsn := "sqlite+pysqlite:///test.db"
  security := { allowedDirectories := [], allowedDomains := ["*"] }
  createEngine _ := .ok { query := fun _ => pure [], execute := fun _ => pure (some 1) }

end DatabaseTool

end Ochestrate
