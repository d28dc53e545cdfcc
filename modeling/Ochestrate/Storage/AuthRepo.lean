import Ochestrate.Storage.TaskRepo

/-!
# The auth repository

`app/storage/repositories/auth_repo.py`: the users, each under its tenant and
username, and the refresh tokens by token id. The tables declare the same keys
unique that the dictionaries of the in-memory mode use.
-/

namespace Ochestrate

/-- Microseconds since the epoch. -/
abbrev Time := Int

abbrev TokenId := String

structure UserRecord where
  tenantId : String
  userId : String
  username : String
  role : String
  status : String
  passwordHash : String
  createdAt : Time
  deriving DecidableEq

/-- A row of `refresh_tokens`. -/
structure RefreshToken where
  tokenId : TokenId
  tenantId : String
  userId : String
  sessionId : String
  refreshTokenHash : String
  expiresAt : Time
  revoked : Bool := false
  deriving DecidableEq

/-- The fields that an update gives; `none` and the empty string leave a field
as it is. -/
structure UserUpdate where
  role : Option String := none
  status : Option String := none
  passwordHash : Option String := none
  deriving DecidableEq

/-- `given or current` -/
def givenOr (given : Option String) (current : String) : String :=
  match given with
  | none => current
  | some text => if text = "" then current else text

/-- The three fields that `update_user` writes. -/
structure UserFields where
  role : String
  status : String
  passwordHash : String
  deriving DecidableEq

def UserRecord.fields (user : UserRecord) : UserFields := ⟨user.role, user.status, user.passwordHash⟩

/-- The user with the three fields. -/
def UserRecord.withFields (user : UserRecord) (next : UserFields) : UserRecord :=
  { user with role := next.role, status := next.status, passwordHash := next.passwordHash }

/-- `next_role`, `next_status` and `next_hash`. -/
def UserUpdate.next (update : UserUpdate) (current : UserFields) : UserFields where
  role := givenOr update.role current.role
  status := givenOr update.status current.status
  passwordHash := givenOr update.passwordHash current.passwordHash

/-- The users and the refresh tokens, each row under its own key. -/
structure AuthRepository where
  mode : RepoMode
  users : Dict (String × String) UserRecord
  tokens : Dict TokenId RefreshToken
  users_keyed : ∀ key user, users.get? key = some user → (user.tenantId, user.username) = key
  tokens_keyed : ∀ id row, tokens.get? id = some row → row.tokenId = id

namespace AuthRepository

/-- A repository without rows. -/
def empty (mode : RepoMode) : AuthRepository :=
  ⟨mode, .empty, .empty, by rintro _ _ ⟨⟩, by rintro _ _ ⟨⟩⟩

/-- Writes a user under its key. -/
def putUser (repo : AuthRepository) (user : UserRecord) : AuthRepository where
  mode := repo.mode
  users := repo.users.set (user.tenantId, user.username) user
  tokens := repo.tokens
  users_keyed key user' h := by
    rw [Dict.get?_set] at h
    split at h
    · rename_i hkey; rw [← Option.some.inj h, hkey]
    · exact repo.users_keyed key user' h
  tokens_keyed := repo.tokens_keyed

/-- Writes a token under its id. -/
def putToken (repo : AuthRepository) (row : RefreshToken) : AuthRepository where
  mode := repo.mode
  users := repo.users
  tokens := repo.tokens.set row.tokenId row
  users_keyed := repo.users_keyed
  tokens_keyed id row' h := by
    rw [Dict.get?_set] at h
    split at h
    · rename_i hid; rw [← Option.some.inj h, hid]
    · exact repo.tokens_keyed id row' h

def isEmpty (repo : AuthRepository) : Bool := repo.users.values.isEmpty

/-- `get_user_by_username`. -/
def getUserByUsername (repo : AuthRepository) (tenantId username : String) : Option UserRecord :=
  repo.users.get? (tenantId, username)

/-- `get_user_by_id`. -/
def getUserById (repo : AuthRepository) (tenantId userId : String) : Option UserRecord :=
  repo.users.values.find? fun user => user.tenantId = tenantId && user.userId = userId

/-- `list_users` of the in-memory mode, in the order in which the users were
created. -/
def listUsers (repo : AuthRepository) (tenantId : String) : List UserRecord :=
  repo.users.values.filter fun user => user.tenantId = tenantId

/-- `create_user`, with the fresh user id, the time and the `current_timestamp`
of the database server as arguments. In the table a tenant's usernames and user
ids are unique, and `created_at` is filled in by the server. -/
def createUser (now serverNow : Time) (userId tenantId username passwordHash role status : String) :
    EStateM Exc AuthRepository UserRecord := fun repo =>
  let record := ⟨tenantId, userId, username, role, status, passwordHash, now⟩
  match repo.mode with
  | .memory => .ok record (repo.putUser record)
  | .database =>
    if (repo.getUserByUsername tenantId username).isSome || (repo.getUserById tenantId userId).isSome then
      .error ⟨.integrityError, "UNIQUE constraint failed"⟩ repo
    else
      let row := { record with createdAt := serverNow }
      .ok row (repo.putUser row)

/-- The second half of `update_user`: the user is looked up again, and gets the
fields that the first half has computed. -/
def writeUser (tenantId userId : String) (next : UserFields) : EStateM Exc AuthRepository (Option UserRecord) :=
  fun repo =>
    match repo.getUserById tenantId userId with
    | none => .ok none repo
    | some row => .ok (some (row.withFields next)) (repo.putUser (row.withFields next))

/-- `update_user`. -/
def updateUser (tenantId userId : String) (update : UserUpdate) :
    EStateM Exc AuthRepository (Option UserRecord) := do
  match (← get).getUserById tenantId userId with
  | none => return none
  | some current => writeUser tenantId userId (update.next current.fields)

/-- `create_bootstrap_admin_if_needed`. -/
def createBootstrapAdminIfNeeded (now serverNow : Time) (userId tenantId username passwordHash : String) :
    EStateM Exc AuthRepository UserRecord := do
  match (← get).getUserByUsername tenantId username with
  | some existing => return existing
  | none =>
    if (← get).isEmpty then
      createUser now serverNow userId tenantId username passwordHash "admin" "active"
    else throw ⟨.permissionError, "bootstrap admin disabled because users already exist"⟩

/-- `get_refresh_token`. -/
def getRefreshToken (repo : AuthRepository) (id : TokenId) : Option RefreshToken := repo.tokens.get? id

/-- `store_refresh_token`: in the table `token_id` is unique. -/
def storeRefreshToken (repo : AuthRepository) (row : RefreshToken) : Except Exc AuthRepository :=
  match repo.mode with
  | .memory => .ok (repo.putToken row)
  | .database =>
    if (repo.getRefreshToken row.tokenId).isSome then .error ⟨.integrityError, "UNIQUE constraint failed"⟩
    else .ok (repo.putToken row)

/-- `revoke_refresh_token`; an unknown token is ignored. -/
def revokeRefreshToken (repo : AuthRepository) (id : TokenId) : AuthRepository :=
  match repo.getRefreshToken id with
  | none => repo
  | some row => repo.putToken { row with revoked := true }

/-- `refresh_token_expired`. -/
def refreshTokenExpired (now expiresAt : Time) : Bool := expiresAt ≤ now

/-- `cleanup_expired_refresh_tokens`. -/
def cleanupExpiredRefreshTokens (now : Time) (repo : AuthRepository) : AuthRepository where
  mode := repo.mode
  users := repo.users
  tokens := repo.tokens.filter fun _ row => !refreshTokenExpired now row.expiresAt
  users_keyed := repo.users_keyed
  tokens_keyed id row h := by
    rw [Dict.get?_filter] at h
    exact repo.tokens_keyed id row (Option.filter_eq_some_iff.1 h).1

variable (repo : AuthRepository)

theorem getRefreshToken_putToken (row : RefreshToken) (id : TokenId) :
    (repo.putToken row).getRefreshToken id = if id = row.tokenId then some row else repo.getRefreshToken id :=
  Dict.get?_set ..

theorem getRefreshToken_revoke (id id' : TokenId) :
    (repo.revokeRefreshToken id).getRefreshToken id' =
      if id' = id then (repo.getRefreshToken id).map ({ · with revoked := true }) else repo.getRefreshToken id' := by
  unfold revokeRefreshToken
  cases hrow : repo.getRefreshToken id with
  | none =>
    by_cases hid : id' = id
    · rw [if_pos hid, hid, hrow, Option.map_none]
    · rw [if_neg hid]
  | some row =>
    have hkey : row.tokenId = id := repo.tokens_keyed id row hrow
    simp only [getRefreshToken_putToken, hkey, Option.map_some]

theorem isEmpty_iff : repo.isEmpty = true ↔ ∀ key, repo.users.get? key = none := by
  rw [isEmpty, List.isEmpty_iff, List.eq_nil_iff_forall_not_mem]
  constructor
  · exact fun h key => Option.eq_none_iff_forall_ne_some.2 fun user huser =>
      h user ((Dict.mem_values _).2 ⟨key, huser⟩)
  · intro h user huser
    obtain ⟨key, hkey⟩ := (Dict.mem_values _).1 huser
    rw [h key] at hkey
    cases hkey

/-- `create_user` writes the new user, or raises. -/
theorem createUser_cases (now serverNow : Time) (userId tenantId username passwordHash role status : String) :
    (∃ exc, createUser now serverNow userId tenantId username passwordHash role status repo = .error exc repo) ∨
      ∃ createdAt, createUser now serverNow userId tenantId username passwordHash role status repo =
        .ok ⟨tenantId, userId, username, role, status, passwordHash, createdAt⟩
          (repo.putUser ⟨tenantId, userId, username, role, status, passwordHash, createdAt⟩) := by
  unfold createUser
  cases repo.mode with
  | memory => exact .inr ⟨now, rfl⟩
  | database =>
    dsimp only
    split
    · exact .inl ⟨_, rfl⟩
    · exact .inr ⟨serverNow, rfl⟩

/-- In an empty store nothing is in its way. -/
theorem createUser_of_isEmpty {repo : AuthRepository} (h : repo.isEmpty = true) (now serverNow : Time)
    (userId tenantId username passwordHash role status : String) :
    ∃ createdAt, createUser now serverNow userId tenantId username passwordHash role status repo =
      .ok ⟨tenantId, userId, username, role, status, passwordHash, createdAt⟩
        (repo.putUser ⟨tenantId, userId, username, role, status, passwordHash, createdAt⟩) := by
  have hfree := repo.isEmpty_iff.1 h
  have hname : repo.getUserByUsername tenantId username = none := hfree _
  have hid : repo.getUserById tenantId userId = none := by
    refine Option.eq_none_iff_forall_ne_some.2 fun user huser => ?_
    obtain ⟨key, hkey⟩ := (Dict.mem_values _).1 (List.mem_of_find?_eq_some huser)
    rw [hfree key] at hkey
    cases hkey
  unfold createUser
  cases repo.mode with
  | memory => exact ⟨now, rfl⟩
  | database =>
    exact ⟨serverNow, by simp only [hname, hid, Option.isSome_none, Bool.or_self, Bool.false_eq_true, ↓reduceIte]⟩

/-- `update_user` writes the fields of a user that is there. -/
theorem updateUser_cases (tenantId userId : String) (update : UserUpdate) :
    updateUser tenantId userId update repo = .ok none repo ∨
      ∃ user, repo.getUserById tenantId userId = some user ∧
        updateUser tenantId userId update repo =
          .ok (some (user.withFields (update.next user.fields)))
            (repo.putUser (user.withFields (update.next user.fields))) := by
  unfold updateUser
  rw [get_bind]
  cases huser : repo.getUserById tenantId userId with
  | none => exact .inl rfl
  | some user => exact .inr ⟨user, rfl, by simp only [writeUser, huser]⟩

theorem users_revokeRefreshToken (id : TokenId) : (repo.revokeRefreshToken id).users = repo.users := by
  unfold revokeRefreshToken
  split <;> rfl

theorem getRefreshToken_revoke_none {id' : TokenId} (h : repo.getRefreshToken id' = none) (id : TokenId) :
    (repo.revokeRefreshToken id).getRefreshToken id' = none := by
  rw [getRefreshToken_revoke]
  split
  · rename_i hid; rw [← hid, h, Option.map_none]
  · exact h

theorem getRefreshToken_cleanup (now : Time) (id : TokenId) :
    (cleanupExpiredRefreshTokens now repo).getRefreshToken id =
      (repo.getRefreshToken id).filter fun row => !refreshTokenExpired now row.expiresAt :=
  Dict.get?_filter ..

theorem getUserById_some {repo : AuthRepository} {tenantId userId : String} {user : UserRecord}
    (h : repo.getUserById tenantId userId = some user) :
    user ∈ repo.users.values ∧ user.tenantId = tenantId ∧ user.userId = userId := by
  have hp := List.find?_some h
  rw [Bool.and_eq_true, decide_eq_true_iff, decide_eq_true_iff] at hp
  exact ⟨List.mem_of_find?_eq_some h, hp⟩

theorem getUserById_putUser_withFields {repo : AuthRepository} {tenantId userId : String} {user : UserRecord}
    (h : repo.getUserById tenantId userId = some user) (next : UserFields) :
    (repo.putUser (user.withFields next)).getUserById tenantId userId = some (user.withFields next) := by
  obtain ⟨hmem, ht, hu⟩ := getUserById_some h
  obtain ⟨key, hkey⟩ := (Dict.mem_values _).1 hmem
  obtain rfl := repo.users_keyed key user hkey
  have hinj : ∀ key, repo.users.get? key = some user → key = (user.tenantId, user.username) :=
    fun key hkey => (repo.users_keyed key user hkey).symm
  refine (congrArg (List.find? _) (repo.users.values_set_of_some (user.withFields next) hkey hinj)).trans ?_
  exact Dict.find?_replace h (by simp [UserRecord.withFields, ht, hu])

theorem getUserByUsername_some {repo : AuthRepository} {tenantId username : String} {user : UserRecord}
    (h : repo.getUserByUsername tenantId username = some user) :
    user ∈ repo.users.values ∧ user.tenantId = tenantId ∧ user.username = username :=
  ⟨(Dict.mem_values _).2 ⟨_, h⟩, Prod.mk.inj (repo.users_keyed _ _ h)⟩

theorem storeRefreshToken_ok {row : RefreshToken} {repo' : AuthRepository}
    (h : repo.storeRefreshToken row = .ok repo') : repo' = repo.putToken row := by
  unfold storeRefreshToken at h
  split at h
  · exact (Except.ok.inj h).symm
  · split at h
    · cases h
    · exact (Except.ok.inj h).symm

/-- A token with a new id is stored. -/
theorem storeRefreshToken_of_none {row : RefreshToken} (h : repo.getRefreshToken row.tokenId = none) :
    repo.storeRefreshToken row = .ok (repo.putToken row) := by
  unfold storeRefreshToken
  split
  · rfl
  · rw [h]; rfl

end AuthRepository

end Ochestrate
