import Mathlib.Data.List.Induction
import Ochestrate.Auth.Service
import Ochestrate.Auth.Verification

/-!
# The first administrator

`bootstrap_admin_if_needed` creates an administrator in an empty store, returns
the user that has the name, or refuses. Calls that write users keep no token and
write only hashes of passwords (`Written`, by the shapes of `write_cases`), so
in every store that they reach it is known what a login answers. A bootstrap that
returns leads to an administrator who can log in exactly if nobody had the name,
or the one who had it is such an administrator (`bootstrap_login_iff`).
-/

namespace Ochestrate

namespace AuthService

/-- The calls that write users. -/
inductive UserCall
  | bootstrap (now serverNow : Time) (salt : Bytes) (userId tenantId username password : String)
  | createUser (now serverNow : Time) (salt : Bytes) (userId tenantId username password role status : String)
  | updateUser (salt : Bytes) (tenantId userId : String) (role status password : Option String)

/-- The store after a call, whether it returned or raised. -/
def UserCall.after (P : Pbkdf2) (repo : AuthRepository) : UserCall → AuthRepository
  | bootstrap now serverNow salt userId tenantId username password =>
    finalState (bootstrapAdminIfNeeded P now serverNow salt userId tenantId username password repo)
  | createUser now serverNow salt userId tenantId username password role status =>
    finalState (AuthService.createUser P now serverNow salt userId tenantId username password role status repo)
  | updateUser salt tenantId userId role status password =>
    finalState (AuthService.updateUser P salt tenantId userId role status password repo)

/-- The store after calls in turn. -/
def usersAfter (P : Pbkdf2) (mode : RepoMode) (calls : List UserCall) : AuthRepository :=
  calls.foldl (UserCall.after P) (.empty mode)

/-! ## What a call writes -/

/-- The text is the hash of some password. -/
def IsHash (P : Pbkdf2) (hash : String) : Prop := ∃ salt password, P.hashPassword salt password = .ok hash

variable {P : Pbkdf2} {repo : AuthRepository}

/-- A bootstrap hashes the password, and then refuses, returns the user that has
the name, or creates one in an empty store. -/
theorem bootstrap_cases (P : Pbkdf2) (now serverNow : Time) (salt : Bytes) (userId tenantId username password : String)
    (repo : AuthRepository) :
    (∃ exc, bootstrapAdminIfNeeded P now serverNow salt userId tenantId username password repo = .error exc repo) ∨
      ∃ hash, P.hashPassword salt password = .ok hash ∧
        ((∃ user, repo.getUserByUsername tenantId username = some user ∧
          bootstrapAdminIfNeeded P now serverNow salt userId tenantId username password repo = .ok user repo) ∨
        ∃ createdAt, repo.getUserByUsername tenantId username = none ∧ repo.isEmpty = true ∧
          bootstrapAdminIfNeeded P now serverNow salt userId tenantId username password repo =
            .ok ⟨tenantId, userId, username, "admin", "active", hash, createdAt⟩
              (repo.putUser ⟨tenantId, userId, username, "admin", "active", hash, createdAt⟩)) := by
  unfold bootstrapAdminIfNeeded
  cases hhash : P.hashPassword salt password with
  | error exc => exact .inl ⟨exc, by rw [ofExcept_error_bind]⟩
  | ok hash =>
    rw [ofExcept_ok_bind]
    unfold AuthRepository.createBootstrapAdminIfNeeded
    rw [get_bind]
    cases huser : repo.getUserByUsername tenantId username with
    | some user => exact .inr ⟨hash, rfl, .inl ⟨user, rfl, rfl⟩⟩
    | none =>
      dsimp only
      rw [get_bind]
      by_cases hempty : repo.isEmpty = true
      · rw [if_pos hempty]
        obtain ⟨createdAt, hcreate⟩ :=
          AuthRepository.createUser_of_isEmpty hempty now serverNow userId tenantId username hash "admin" "active"
        exact .inr ⟨hash, rfl, .inr ⟨createdAt, rfl, hempty, hcreate⟩⟩
      · rw [if_neg hempty]
        exact .inl ⟨_, rfl⟩

theorem updatedHash_cases {salt : Bytes} {password given : Option String} (h : updatedHash P salt password = .ok given) :
    given = none ∨ ∃ hash, given = some hash ∧ IsHash P hash := by
  unfold updatedHash at h
  split at h
  · exact .inl (Except.ok.inj h).symm
  · rename_i password
    split at h
    · exact .inl (Except.ok.inj h).symm
    · cases hhash : P.hashPassword salt password with
      | error exc =>
        rw [hhash] at h
        cases h
      | ok hash =>
        rw [hhash] at h
        exact .inr ⟨hash, (Except.ok.inj h).symm, salt, password, hhash⟩

/-- A call writes nothing, or one user: with a hash of a password, or the hash of
the user that it replaces. -/
theorem write_cases (P : Pbkdf2) (repo : AuthRepository) (call : UserCall) :
    call.after P repo = repo ∨ ∃ user, call.after P repo = repo.putUser user ∧
      (IsHash P user.passwordHash ∨ ∃ old ∈ repo.users.values, old.passwordHash = user.passwordHash) := by
  cases call with
  | bootstrap now serverNow salt userId tenantId username password =>
    rcases bootstrap_cases P now serverNow salt userId tenantId username password repo with
      ⟨exc, h⟩ | ⟨hash, hhash, ⟨user, -, h⟩ | ⟨createdAt, -, -, h⟩⟩
    · exact .inl (congrArg finalState h)
    · exact .inl (congrArg finalState h)
    · exact .inr ⟨_, congrArg finalState h, .inl ⟨salt, password, hhash⟩⟩
  | createUser now serverNow salt userId tenantId username password role status =>
    rw [UserCall.after, AuthService.createUser]
    cases hhash : P.hashPassword salt password with
    | error exc => exact .inl rfl
    | ok hash =>
      rw [ofExcept_ok_bind]
      rcases repo.createUser_cases now serverNow userId tenantId username hash role status with ⟨exc, h⟩ | ⟨createdAt, h⟩
      · exact .inl (congrArg finalState h)
      · exact .inr ⟨_, congrArg finalState h, .inl ⟨salt, password, hhash⟩⟩
  | updateUser salt tenantId userId role status password =>
    rw [UserCall.after, AuthService.updateUser]
    cases hhash : updatedHash P salt password with
    | error exc => exact .inl rfl
    | ok given =>
      rw [ofExcept_ok_bind]
      rcases repo.updateUser_cases tenantId userId { role, status, passwordHash := given } with h | ⟨user, huser, h⟩
      · exact .inl (congrArg finalState h)
      · refine .inr ⟨_, congrArg finalState h, ?_⟩
        change IsHash P (givenOr given user.passwordHash) ∨ ∃ old ∈ repo.users.values,
          old.passwordHash = givenOr given user.passwordHash
        rcases updatedHash_cases hhash with rfl | ⟨hash, rfl, hhash⟩
        · exact .inr ⟨user, (AuthRepository.getUserById_some huser).1, rfl⟩
        · by_cases hempty : hash = ""
          · exact .inr ⟨user, (AuthRepository.getUserById_some huser).1, (if_pos hempty).symm⟩
          · exact .inl (by rwa [givenOr, if_neg hempty])

/-- No token is stored, and every user's hash is that of a password. -/
structure Written (P : Pbkdf2) (repo : AuthRepository) : Prop where
  tokens : ∀ id, repo.getRefreshToken id = none
  hashes : ∀ user ∈ repo.users.values, IsHash P user.passwordHash

theorem Written.putUser (h : Written P repo) {user : UserRecord} (hhash : IsHash P user.passwordHash) :
    Written P (repo.putUser user) := by
  refine ⟨h.tokens, fun user' huser' => ?_⟩
  obtain ⟨key, hkey⟩ := (Dict.mem_values _).1 huser'
  rw [AuthRepository.putUser, Dict.get?_set] at hkey
  split at hkey
  · rw [← Option.some.inj hkey]
    exact hhash
  · exact h.hashes user' ((Dict.mem_values _).2 ⟨key, hkey⟩)

theorem Written.after (h : Written P repo) (call : UserCall) : Written P (call.after P repo) := by
  rcases write_cases P repo call with hnone | ⟨user, hwrite, hhash | ⟨old, hold, hhash⟩⟩
  · rwa [hnone]
  · rw [hwrite]
    exact h.putUser hhash
  · rw [hwrite]
    exact h.putUser (hhash ▸ h.hashes old hold)

/-- Every store that the calls reach. -/
theorem written_usersAfter (P : Pbkdf2) (mode : RepoMode) (calls : List UserCall) :
    Written P (usersAfter P mode calls) := by
  induction calls using List.reverseRecOn with
  | nil => exact ⟨fun _ => rfl, by simp [usersAfter, AuthRepository.empty]⟩
  | append_singleton calls call ih =>
    rw [usersAfter, List.foldl_concat]
    exact ih.after call

/-! ## Logging in -/

variable {τ : Type} (A : AuthService τ)

/-- A login with the name and the password returns, at any time and with any new
session and token. -/
def LogsIn (P : Pbkdf2) (tenantId username password : String) (repo : AuthRepository) : Prop :=
  ∀ (now : Time) (sessionId tokenId : String),
    ∃ response repo', A.login P now sessionId tokenId tenantId username password repo = .ok response repo'

/-- The user may log in with the password. -/
def Admits (P : Pbkdf2) (password : String) (user : UserRecord) : Prop :=
  user.status = "active" ∧ P.verifyPassword password user.passwordHash = .ok true

theorem checkLogin_of_admits {password : String} {user : UserRecord} (h : Admits P password user) :
    checkLogin P password (some user) = .ok user := by
  simp only [checkLogin, h.1, h.2, ne_eq, not_true_eq_false, ↓reduceIte]

theorem admits_of_checkLogin {password : String} {o : Option UserRecord} {user : UserRecord}
    (h : checkLogin P password o = .ok user) : o = some user ∧ Admits P password user := by
  obtain ⟨rfl, hactive⟩ := checkLogin_ok h
  refine ⟨rfl, hactive, ?_⟩
  simp only [checkLogin, hactive, ne_eq, not_true_eq_false, ↓reduceIte] at h
  split at h
  · cases h
  · cases h
  · assumption

variable {tenantId username password : String}

/-- Without tokens in the store, a login returns exactly for a user that may log in. -/
theorem logsIn_iff (htokens : ∀ id, repo.getRefreshToken id = none) :
    A.LogsIn P tenantId username password repo ↔
      ∃ user, repo.getUserByUsername tenantId username = some user ∧ Admits P password user := by
  constructor
  · intro h
    obtain ⟨response, repo', hlogin⟩ := h 0 "" ""
    rw [A.login_eq] at hlogin
    cases hcheck : checkLogin P password (repo.getUserByUsername tenantId username) with
    | error exc =>
      rw [hcheck] at hlogin
      cases hlogin
    | ok user => exact ⟨user, admits_of_checkLogin hcheck⟩
  · rintro ⟨user, huser, hadmits⟩ now sessionId tokenId
    rw [A.login_eq, huser, checkLogin_of_admits hadmits]
    exact ⟨_, _, A.issueTokens_of_none (htokens tokenId)⟩

/-- A login whose password is compared returns or raises a `PermissionError`. -/
theorem checkLogin_cases {user : UserRecord} {verified : Bool}
    (h : P.verifyPassword password user.passwordHash = .ok verified) :
    checkLogin P password (some user) = .ok user ∨
      ∃ message, checkLogin P password (some user) = .error (permissionError message) := by
  unfold checkLogin
  by_cases hactive : user.status = "active"
  · cases verified with
    | true => exact .inl (by simp only [hactive, h, ne_eq, not_true_eq_false, ↓reduceIte])
    | false =>
      exact .inr ⟨"invalid username or password", by simp only [hactive, h, ne_eq, not_true_eq_false, ↓reduceIte]⟩
  · exact .inr ⟨"user is disabled", if_pos hactive⟩

/-- In every store that bootstraps, creations and updates of users reach: a
bootstrap that returns leads to an administrator who can log in with the
password exactly if nobody had the name, or the user that had it is an
administrator, is active and has a hash that the password verifies. If nobody had
the name the store was empty and gets an active administrator. A user that had the
name is returned as it is, nothing is written, and a login that does not
return raises a `PermissionError`. -/
theorem bootstrap_login_iff (P : Pbkdf2) (h : P.Documented) (mode : RepoMode) (calls : List UserCall)
    (now serverNow : Time) (salt : Bytes) (userId tenantId username password : String) {record : UserRecord}
    {repo' : AuthRepository}
    (hboot : bootstrapAdminIfNeeded P now serverNow salt userId tenantId username password (usersAfter P mode calls) =
      .ok record repo') :
    (record.role = "admin" ∧ A.LogsIn P tenantId username password repo' ↔
      ∀ user, (usersAfter P mode calls).getUserByUsername tenantId username = some user →
        user.role = "admin" ∧ user.status = "active" ∧ P.verifyPassword password user.passwordHash = .ok true) ∧
    ((usersAfter P mode calls).getUserByUsername tenantId username = none →
      (usersAfter P mode calls).isEmpty = true ∧ ∃ hash createdAt,
        record = ⟨tenantId, userId, username, "admin", "active", hash, createdAt⟩ ∧
          repo' = (usersAfter P mode calls).putUser record) ∧
    ∀ user, (usersAfter P mode calls).getUserByUsername tenantId username = some user →
      record = user ∧ repo' = usersAfter P mode calls ∧ ∀ (now : Time) (sessionId tokenId : String),
        (∃ response repo'', A.login P now sessionId tokenId tenantId username password repo' = .ok response repo'') ∨
          ∃ message, A.login P now sessionId tokenId tenantId username password repo' =
            .error ⟨.permissionError, message⟩ repo' := by
  have hwritten := written_usersAfter P mode calls
  rcases bootstrap_cases P now serverNow salt userId tenantId username password (usersAfter P mode calls) with
    ⟨exc, hcase⟩ | ⟨hash, hhash, ⟨user, huser, hcase⟩ | ⟨createdAt, hnone, hempty, hcase⟩⟩
  · rw [hcase] at hboot
    cases hboot
  · rw [hcase] at hboot
    obtain ⟨rfl, rfl⟩ := EStateM.Result.ok.inj hboot
    refine ⟨?_, fun hnone => absurd (huser.symm.trans hnone) (by simp), ?_⟩
    · rw [A.logsIn_iff hwritten.tokens]
      simp only [huser, Option.some.injEq, exists_eq_left', forall_eq', Admits]
    · intro user' huser'
      obtain rfl := Option.some.inj (huser.symm.trans huser')
      refine ⟨rfl, rfl, fun now sessionId tokenId => ?_⟩
      obtain ⟨salt', password', hhash'⟩ := hwritten.hashes user (AuthRepository.getUserByUsername_some huser).1
      obtain ⟨verified, hverified⟩ := Pbkdf2.verifyPassword_returns h hhash hhash'
      rw [A.login_eq, huser]
      rcases checkLogin_cases hverified with hcheck | ⟨message, hcheck⟩
      · rw [hcheck]
        exact .inl ⟨_, _, A.issueTokens_of_none (hwritten.tokens tokenId)⟩
      · rw [hcheck]
        exact .inr ⟨message, rfl⟩
  · rw [hcase] at hboot
    obtain ⟨rfl, rfl⟩ := EStateM.Result.ok.inj hboot
    have htokens : ∀ id, ((usersAfter P mode calls).putUser
        ⟨tenantId, userId, username, "admin", "active", hash, createdAt⟩).getRefreshToken id = none := hwritten.tokens
    have hnew : ((usersAfter P mode calls).putUser
        ⟨tenantId, userId, username, "admin", "active", hash, createdAt⟩).getUserByUsername tenantId username =
          some ⟨tenantId, userId, username, "admin", "active", hash, createdAt⟩ := Dict.get?_set_self ..
    have hlogsIn := (A.logsIn_iff htokens).2 ⟨_, hnew, rfl, Pbkdf2.verifyPassword_hashPassword h hhash⟩
    refine ⟨?_, fun _ => ⟨hempty, hash, createdAt, rfl, rfl⟩, ?_⟩
    · exact ⟨fun _ user huser => absurd (hnone.symm.trans huser) (by simp), fun _ => ⟨rfl, hlogsIn⟩⟩
    · exact fun user huser => absurd (hnone.symm.trans huser) (by simp)

/-! ## Two stores -/

open Pbkdf2

theorem exists_secretHash : ∃ hash, secretLibrary.hashPassword (List.replicate 16 0) "secret" = .ok hash := by
  obtain ⟨digest, hdigest⟩ := (secretHmac_returns "secret" (List.replicate 16 0) Pbkdf2.rounds).2 (by decide)
  have hhmac : secretLibrary.hmac "secret" (List.replicate 16 0) Pbkdf2.rounds = .ok digest := hdigest
  exact ⟨_, by rw [hashPassword, hhmac]; rfl⟩

/-- In an empty store the administrator is created and can log in. -/
theorem bootstrap_login_iff_empty :
    ∃ record repo', bootstrapAdminIfNeeded secretLibrary 0 0 (List.replicate 16 0) "u1" "acme" "alice" "secret"
        (usersAfter secretLibrary .memory []) = .ok record repo' ∧
      record.role = "admin" ∧ AuthService.plain.LogsIn secretLibrary "acme" "alice" "secret" repo' := by
  obtain ⟨hash, hhash⟩ := exists_secretHash
  have hboot : bootstrapAdminIfNeeded secretLibrary 0 0 (List.replicate 16 0) "u1" "acme" "alice" "secret"
      (usersAfter secretLibrary .memory []) = .ok ⟨"acme", "u1", "alice", "admin", "active", hash, 0⟩
        ((AuthRepository.empty .memory).putUser ⟨"acme", "u1", "alice", "admin", "active", hash, 0⟩) := by
    rw [bootstrapAdminIfNeeded, hhash, ofExcept_ok_bind]
    rfl
  refine ⟨_, _, hboot, (bootstrap_login_iff AuthService.plain secretLibrary secretLibrary_documented .memory [] 0 0
    (List.replicate 16 0) "u1" "acme" "alice" "secret" hboot).1.2 fun user huser => ?_⟩
  exact absurd huser (by rintro ⟨⟩)

/-- An employee of the name is returned as the result of a bootstrap. -/
theorem exists_bootstrap_employee :
    ¬ ∀ (P : Pbkdf2), P.Documented → ∀ (mode : RepoMode) (calls : List UserCall) (now serverNow : Time) (salt : Bytes)
      (userId tenantId username password : String) (record : UserRecord) (repo' : AuthRepository),
      bootstrapAdminIfNeeded P now serverNow salt userId tenantId username password (usersAfter P mode calls) =
        .ok record repo' →
      record.role = "admin" ∧ AuthService.plain.LogsIn P tenantId username password repo' := by
  intro h
  obtain ⟨hash, hhash⟩ := exists_secretHash
  let bob : UserRecord := ⟨"acme", "u1", "bob", "employee", "active", hash, 0⟩
  have hcreate : usersAfter secretLibrary .memory
      [.createUser 0 0 (List.replicate 16 0) "u1" "acme" "bob" "secret" "employee" "active"] =
        (AuthRepository.empty .memory).putUser bob := by
    change finalState (AuthService.createUser secretLibrary 0 0 (List.replicate 16 0) "u1" "acme" "bob" "secret"
      "employee" "active" (.empty .memory)) = _
    rw [AuthService.createUser, hhash, ofExcept_ok_bind]
    rfl
  have hboot : bootstrapAdminIfNeeded secretLibrary 0 0 (List.replicate 16 0) "u2" "acme" "bob" "secret"
      ((AuthRepository.empty .memory).putUser bob) = .ok bob ((AuthRepository.empty .memory).putUser bob) := by
    rw [bootstrapAdminIfNeeded, hhash, ofExcept_ok_bind]
    rfl
  have hadmin : "employee" = "admin" :=
    (h secretLibrary secretLibrary_documented .memory _ 0 0 (List.replicate 16 0) "u2" "acme" "bob" "secret" bob _
      (by rw [hcreate, hboot])).1
  exact absurd hadmin (by decide)

end AuthService

end Ochestrate
