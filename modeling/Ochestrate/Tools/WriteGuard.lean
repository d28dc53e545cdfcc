import Mathlib.Data.List.TakeWhile
import Ochestrate.Tools.Database

/-!
# Which writes the guard sees

The database skips white space, comments and opening parentheses before the
first keyword of a statement (`Skipped`); the guard skips white space.
`unconfirmed_write_refused_iff` says which unconfirmed writes `run` refuses with
a `PermissionError`: those with white space only before the keyword, and those
that the tenant scope refuses. `commented_write_sent` is one that it sends.
-/

namespace Ochestrate

namespace DatabaseTool

/-- Text before the first keyword that the database skips. -/
inductive Skipped : List Char → Prop
  | nil : Skipped []
  | space {c : Char} {text : List Char} (h : isSpace c = true) (htext : Skipped text) : Skipped (c :: text)
  | paren {text : List Char} (htext : Skipped text) : Skipped ('(' :: text)
  | dashes {body text : List Char} (h : '\n' ∉ body) (htext : Skipped text) :
    Skipped ('-' :: '-' :: ' ' :: (body ++ '\n' :: text))
  | hash {body text : List Char} (h : '\n' ∉ body) (htext : Skipped text) : Skipped ('#' :: (body ++ '\n' :: text))
  | block {body text : List Char} (h : ¬ ['*', '/'] <:+: body) (htext : Skipped text) :
    Skipped ('/' :: '*' :: (body ++ '*' :: '/' :: text))

/-- The text begins with a keyword of the guard, in any letter case. -/
def StartsWithWrite (text : List Char) : Prop :=
  ∃ word tail, text = word ++ tail ∧ (∀ c ∈ word, c.isAlpha = true) ∧
    String.ofList (word.map Char.toUpper) ∈ writeKeywords ∧ ∀ c ∈ tail.head?, c.isAlpha = false

/-! ## The first keyword -/

theorem isAlpha_of_isSpace {c : Char} (h : isSpace c = true) : c.isAlpha = false := by
  rw [← Bool.not_eq_true]
  intro halpha
  simp only [isSpace, Bool.or_eq_true, Bool.and_eq_true, decide_eq_true_eq] at h
  change (decide ('A'.val ≤ c.val ∧ c.val ≤ 'Z'.val) || decide ('a'.val ≤ c.val) && decide (c.val ≤ 'z'.val)) = true
    at halpha
  simp only [Bool.or_eq_true, Bool.and_eq_true, decide_eq_true_eq, UInt32.le_iff_toNat_le] at halpha
  change (65 ≤ c.toNat ∧ c.toNat ≤ 90) ∨ (97 ≤ c.toNat ∧ c.toNat ≤ 122) at halpha
  omega

/-- A text whose first character is skipped by nobody has no keyword. -/
theorem firstKeyword_cons {c : Char} (hspace : isSpace c = false) (halpha : c.isAlpha = false) (text : List Char) :
    firstKeyword (c :: text) = [] := by
  simp [firstKeyword, hspace, halpha]

theorem firstKeyword_space {c : Char} (h : isSpace c = true) (text : List Char) :
    firstKeyword (c :: text) = firstKeyword text := by
  simp [firstKeyword, h]

/-- The guard finds the keyword behind white space, and nothing behind other
skipped text. -/
theorem firstKeyword_skipped {before : List Char} (h : Skipped before) (rest : List Char) :
    firstKeyword (before ++ rest) = if before.all isSpace then firstKeyword rest else [] := by
  induction h with
  | nil => rfl
  | space h _ ih =>
    rw [List.cons_append, firstKeyword_space h, ih, List.all_cons, h, Bool.true_and]
  | paren => exact firstKeyword_cons (by decide) (by decide) _
  | dashes => exact firstKeyword_cons (by decide) (by decide) _
  | hash => exact firstKeyword_cons (by decide) (by decide) _
  | block => exact firstKeyword_cons (by decide) (by decide) _

/-- Stripping takes white space off the end, behind what it takes off the
beginning. -/
theorem dropWhile_eq_strip_append (raw : String) :
    ∃ spaces, raw.toList.dropWhile isSpace = (strip raw).toList ++ spaces ∧ ∀ c ∈ spaces, isSpace c = true := by
  let text := raw.toList.dropWhile isSpace
  refine ⟨(text.reverse.takeWhile isSpace).reverse, ?_, fun c hc => List.mem_takeWhile_imp (List.mem_reverse.1 hc)⟩
  have hreverse := congrArg List.reverse (List.takeWhile_append_dropWhile (p := isSpace) (l := text.reverse))
  rw [List.reverse_append, List.reverse_reverse] at hreverse
  rw [strip, String.toList_ofList]
  exact hreverse.symm

/-- White space at the end is not part of a keyword. -/
theorem takeWhile_isAlpha_append {spaces : List Char} (h : ∀ c ∈ spaces, isSpace c = true) (text : List Char) :
    (text ++ spaces).takeWhile Char.isAlpha = text.takeWhile Char.isAlpha := by
  induction text with
  | nil =>
    cases spaces with
    | nil => rfl
    | cons c spaces => simp [isAlpha_of_isSpace (h c (List.mem_cons_self ..))]
  | cons c text ih => rw [List.cons_append, List.takeWhile_cons, List.takeWhile_cons, ih]

theorem dropWhile_strip (raw : String) : (strip raw).toList.dropWhile isSpace = (strip raw).toList := by
  obtain ⟨spaces, hsplit, -⟩ := dropWhile_eq_strip_append raw
  cases hstripped : (strip raw).toList with
  | nil => rfl
  | cons c text =>
    have hhead := List.head?_dropWhile_not isSpace raw.toList
    rw [hsplit, hstripped] at hhead
    have hc : isSpace c = false := hhead
    rw [List.dropWhile_cons, hc]
    rfl

/-- Stripping does not change the first keyword. -/
theorem firstKeyword_strip (raw : String) : firstKeyword (strip raw).toList = firstKeyword raw.toList := by
  obtain ⟨spaces, hsplit, hspaces⟩ := dropWhile_eq_strip_append raw
  rw [firstKeyword, firstKeyword, dropWhile_strip, hsplit, takeWhile_isAlpha_append hspaces]

theorem firstKeyword_write {text : List Char} (h : StartsWithWrite text) :
    String.ofList ((firstKeyword text).map Char.toUpper) ∈ writeKeywords := by
  obtain ⟨word, tail, rfl, halpha, hkeyword, htail⟩ := h
  have hword : (word ++ tail).takeWhile Char.isAlpha = word := by
    rw [List.takeWhile_append_of_pos halpha]
    cases tail with
    | nil => simp
    | cons c tail => simp [htail c rfl]
  have hdrop : (word ++ tail).dropWhile isSpace = word ++ tail := by
    cases word with
    | nil => exact absurd hkeyword (by decide)
    | cons c word =>
      have hc : isSpace c = false := by
        rw [← Bool.not_eq_true]
        intro hspace
        have := isAlpha_of_isSpace hspace
        rw [halpha c (List.mem_cons_self ..)] at this
        cases this
      rw [List.cons_append, List.dropWhile_cons, hc]
      rfl
  rw [firstKeyword, hdrop, hword]
  exact hkeyword

section Write

variable {raw : String} {before rest : List Char}

/-- The guard sees a write behind white space only. -/
theorem isWriteSql_strip (hraw : raw.toList = before ++ rest) (hbefore : Skipped before) (hrest : StartsWithWrite rest) :
    isWriteSql (strip raw) = before.all isSpace := by
  unfold isWriteSql
  rw [firstKeyword_strip, hraw, firstKeyword_skipped hbefore]
  cases before.all isSpace with
  | true => exact decide_eq_true (firstKeyword_write hrest)
  | false =>
    show decide (String.ofList (([] : List Char).map Char.toUpper) ∈ writeKeywords) = false
    decide

theorem strip_ne_empty (hraw : raw.toList = before ++ rest) (hrest : StartsWithWrite rest) : strip raw ≠ "" := by
  intro hempty
  obtain ⟨spaces, hsplit, hspaces⟩ := dropWhile_eq_strip_append raw
  rw [hempty] at hsplit
  have hall : ∀ c ∈ raw.toList, isSpace c = true := by
    intro c hc
    rw [← List.takeWhile_append_dropWhile (p := isSpace) (l := raw.toList), List.mem_append] at hc
    rcases hc with hc | hc
    · exact List.mem_takeWhile_imp hc
    · rw [hsplit] at hc
      exact hspaces c hc
  obtain ⟨word, tail, rfl, halpha, hkeyword, -⟩ := hrest
  cases word with
  | nil => exact absurd hkeyword (by decide)
  | cons c word =>
    have hspace : isSpace c = true := hall c (by simp [hraw])
    have hnot := isAlpha_of_isSpace hspace
    rw [halpha c (List.mem_cons_self ..)] at hnot
    cases hnot

end Write

/-! ## The guard in a call -/

variable {ω : Type} {B : Builtins}

theorem type_of_ensureTenantScope {sql tenantId tenantColumn : String} {exc : Exc}
    (h : ensureTenantScope B sql tenantId tenantColumn = .error exc) : exc.type = .permissionError := by
  unfold ensureTenantScope at h
  split at h
  · cases h
    rfl
  · split at h
    · cases h
    · split at h
      · cases h
      · cases h
        rfl

theorem type_of_tenantColumnOf {params : Params} {exc : Exc} (h : tenantColumnOf B params = .error exc) :
    exc.type = .other := by
  unfold tenantColumnOf at h
  split at h
  · cases h
  · cases h
    rfl

section Policies

variable {security : ToolSecurityConfig} {params : Params}

/-- The policies after the statement and its options are read. -/
theorem policies_eq {tenantColumn : String} (hsql : sqlOf B params ≠ "")
    (hcolumn : tenantColumnOf B params = .ok tenantColumn) :
    policies B security params = (writeGuard security params (sqlOf B params)).bind fun _ =>
      if security.dbRequireTenantScope then ensureTenantScope B (sqlOf B params) (tenantOf B params) tenantColumn
      else .ok ⟨⟩ := by
  unfold policies
  simp only [hsql, ↓reduceIte, hcolumn]
  rfl

/-- A statement whose options cannot be read. -/
theorem policies_error {exc : Exc} (hsql : sqlOf B params ≠ "") (hcolumn : tenantColumnOf B params = .error exc) :
    policies B security params = .error exc := by
  unfold policies
  simp only [hsql, ↓reduceIte, hcolumn]
  rfl

end Policies

/-- Before a statement is sent, only the policies raise a `PermissionError`. -/
theorem permissionError_iff (database : DatabaseTool ω) (params : Params) (db : Database ω) :
    (∃ exc db', database.run B params db = .error exc db' ∧ exc.type = .permissionError ∧
        db'.statements = db.statements) ↔
      ∃ exc, policies B database.security params = .error exc ∧ exc.type = .permissionError := by
  obtain ⟨exc, hpolicies, hrun⟩ | ⟨hpolicies, -, exc, htype, hrun⟩ | ⟨hsends, hstatements⟩ :=
    run_cases B database params db
  · rw [hrun, hpolicies]
    constructor
    · rintro ⟨_, _, ⟨⟩, htype, -⟩
      exact ⟨exc, rfl, htype⟩
    · rintro ⟨_, ⟨⟩, htype⟩
      exact ⟨exc, db, rfl, htype, rfl⟩
  · rw [hrun, hpolicies]
    constructor
    · rintro ⟨_, _, ⟨⟩, hpermission, -⟩
      exact absurd hpermission htype
    · rintro ⟨_, ⟨⟩, -⟩
  · rw [hsends.1]
    constructor
    · rintro ⟨exc, db', hrun, -, hsame⟩
      rw [hrun, finalState_error, hsame] at hstatements
      simp at hstatements
    · rintro ⟨_, ⟨⟩, -⟩

/-- An unconfirmed write is refused with a `PermissionError`, and no statement
sent, exactly if its options can be read and it has white space only before its
keyword or is refused for its tenant. -/
theorem unconfirmed_write_refused_iff (database : DatabaseTool ω) (params : Params) (db : Database ω) {raw : String}
    {before rest : List Char} (hsql : params.get? (.str "sql") = some (.str raw)) (hraw : raw.toList = before ++ rest)
    (hbefore : Skipped before) (hrest : StartsWithWrite rest)
    (hprotected : database.security.dbWriteProtectionEnabled = true)
    (hconfirmed : confirmed database.security params = false) :
    (∃ exc db', database.run B params db = .error exc db' ∧ exc.type = .permissionError ∧
        db'.statements = db.statements) ↔
      ∃ tenantColumn, tenantColumnOf B params = .ok tenantColumn ∧
        (before.all isSpace = true ∨ database.security.dbRequireTenantScope = true ∧
          ∃ exc, ensureTenantScope B (sqlOf B params) (tenantOf B params) tenantColumn = .error exc) := by
  have hraw_ne : raw ≠ "" := by
    rintro rfl
    exact strip_ne_empty hraw hrest (by decide)
  have hstrip : sqlOf B params = strip raw := by simp [sqlOf, hsql, orElse, Json.truthy, hraw_ne, B.str_str]
  have hne : sqlOf B params ≠ "" := hstrip ▸ strip_ne_empty hraw hrest
  have hwrite : isWriteSql (sqlOf B params) = before.all isSpace := hstrip ▸ isWriteSql_strip hraw hbefore hrest
  rw [permissionError_iff]
  cases hcolumn : tenantColumnOf B params with
  | error exc =>
    rw [policies_error hne hcolumn]
    constructor
    · rintro ⟨_, ⟨⟩, hpermission⟩
      rw [type_of_tenantColumnOf hcolumn] at hpermission
      cases hpermission
    · rintro ⟨_, ⟨⟩, -⟩
  | ok tenantColumn =>
    rw [policies_eq hne hcolumn]
    cases hspace : before.all isSpace with
    | true =>
      have hguard : writeGuard database.security params (sqlOf B params) = .error ⟨.permissionError,
          "write SQL requires explicit '" ++ database.security.dbConfirmField ++ "=true'"⟩ := by
        simp [writeGuard, hprotected, hwrite, hspace, hconfirmed]
      rw [hguard]
      exact ⟨fun _ => ⟨tenantColumn, rfl, .inl rfl⟩, fun _ => ⟨_, rfl, rfl⟩⟩
    | false =>
      have hguard : writeGuard database.security params (sqlOf B params) = .ok ⟨⟩ := by
        simp [writeGuard, hwrite, hspace]
      rw [hguard]
      simp only [Except.bind, Bool.false_eq_true, false_or, Except.ok.injEq, exists_eq_left']
      cases database.security.dbRequireTenantScope with
      | false => simp
      | true =>
        simp only [↓reduceIte, true_and]
        refine exists_congr fun exc => and_iff_left_of_imp fun hscope => ?_
        exact type_of_ensureTenantScope hscope

/-- A deletion behind a blank. -/
def plainWrite : Params :=
  Dict.empty.update [(.str "operation", .str "execute"), (.str "sql", .str " delete FROM items"),
    (.str "_tenant_id", .str "acme")]

theorem plain_write_refused :
    ∃ exc db, openDatabase.run asciiBuiltins plainWrite ⟨(), []⟩ = .error exc db ∧ exc.type = .permissionError ∧
      db.statements = [] := by
  have hsplit : " delete FROM items".toList = " ".toList ++ "delete FROM items".toList := by decide
  have hwrite : StartsWithWrite "delete FROM items".toList :=
    ⟨"delete".toList, " FROM items".toList, by decide, List.all_eq_true.1 (by decide), by decide,
      fun c hc => Option.some.inj hc ▸ rfl⟩
  exact (unconfirmed_write_refused_iff openDatabase plainWrite ⟨(), []⟩ (by decide) hsplit (.space (by decide) .nil)
    hwrite (by decide) (by decide)).2 ⟨"tenant_id", by decide, .inl (by decide)⟩

/-- `DELETE` behind a comment, for the caller's own tenant. -/
def commentedWrite : Params :=
  Dict.empty.update [(.str "operation", .str "execute"),
    (.str "sql", .str "/* tidy */ DELETE FROM items WHERE tenant_id = 'acme'"), (.str "_tenant_id", .str "acme")]

/-- The unconfirmed write reaches the engine. -/
theorem commented_write_sent :
    ∃ output db, openDatabase.run asciiBuiltins commentedWrite ⟨(), []⟩ = .ok output db ∧
      db.statements = ["/* tidy */ DELETE FROM items WHERE tenant_id = 'acme'"] ∧
      Skipped "/* tidy */ ".toList ∧ StartsWithWrite "DELETE FROM items WHERE tenant_id = 'acme'".toList ∧
      openDatabase.security.dbWriteProtectionEnabled = true ∧ confirmed openDatabase.security commentedWrite = false := by
  refine ⟨_, _, rfl, by decide, ?_, ?_, by decide, by decide⟩
  · have hbody : ¬ ['*', '/'] <:+: " tidy ".toList := by decide
    exact .block hbody (.space (by decide) .nil)
  · exact ⟨"DELETE".toList, " FROM items WHERE tenant_id = 'acme'".toList, by decide, List.all_eq_true.1 (by decide),
      by decide, fun c hc => Option.some.inj hc ▸ rfl⟩

end DatabaseTool

end Ochestrate
