import Ochestrate.Auth.Passwords
import Ochestrate.Auth.Schemas
import Ochestrate.Storage.AuthRepo

/-!
# The auth service

`app/auth/service.py`: the users, the login, the token pairs it issues
(`issueTokens`), their exchange (`refresh`) and the logout. The JWT package is a
parameter (`Jwt`), as is the hash of a token. The methods are cut at their calls
of the repository: `presentedId` is what `refresh` does before the first,
`checkToken` and `checkUser` what it does with the answers, and `checkLogin`
what `login` does with its user.
-/

namespace Ochestrate

/-- The payloads that `_issue_tokens` signs. -/
structure TokenPayload where
  typ : String
  jti : Option TokenId := none
  tenantId : String
  userId : String
  role : Option String := none
  sessionId : String
  exp : Int
  deriving DecidableEq

/-- The package, with the secret and the algorithm of the service. `verify`
checks the signature; the expiry is checked by `decode`. -/
structure Jwt (τ : Type) where
  encode : TokenPayload → τ
  verify : τ → Option TokenPayload
  verify_encode (p : TokenPayload) : verify (encode p) = some p

def second : Time := 1000000

/-- `jwt.decode`; `none` where the package raises. -/
def Jwt.decode {τ : Type} (jwt : Jwt τ) (now : Time) (token : τ) : Option TokenPayload :=
  (jwt.verify token).filter fun payload => now < payload.exp * second

structure AuthService (τ : Type) where
  jwt : Jwt τ
  hashToken : τ → String
  accessTtlMinutes : Int
  refreshTtlDays : Int

namespace AuthService

variable {τ : Type} (A : AuthService τ)

def permissionError (message : String) : Exc := ⟨.permissionError, message⟩

/-- `_decode_token`. -/
def decodeToken (now : Time) (token : τ) : Except Exc TokenPayload :=
  match A.jwt.decode now token with
  | none => .error (permissionError "invalid or expired token")
  | some payload => .ok payload

/-- `decode_access_token`. -/
def decodeAccessToken (now : Time) (token : τ) : Except Exc AuthContext :=
  match A.decodeToken now token with
  | .error exc => .error exc
  | .ok payload =>
    if payload.typ ≠ "access" then .error (permissionError "invalid token type")
    else
      match payload.role with
      | none => .error (permissionError "token missing field 'role'")
      | some role => .ok {
          tenantId := payload.tenantId
          userId := payload.userId
          role := role
          sessionId := payload.sessionId
          tokenExp := payload.exp }

/-- The token id of a refresh token, before the repository is asked. -/
def presentedId (now : Time) (token : τ) : Except Exc TokenId :=
  match A.decodeToken now token with
  | .error exc => .error exc
  | .ok payload =>
    if payload.typ ≠ "refresh" then .error (permissionError "invalid refresh token type")
    else if payload.jti.getD "" = "" then .error (permissionError "refresh token missing token id")
    else .ok (payload.jti.getD "")

/-- The token id that a signed token carries. -/
def tokenId (token : τ) : Option TokenId := (A.jwt.verify token).map fun payload => payload.jti.getD ""

/-- The checks of a refresh token against its row. -/
def checkToken (now : Time) (token : τ) : Option RefreshToken → Except Exc RefreshToken
  | none => .error (permissionError "refresh token not found")
  | some row =>
    if row.revoked then .error (permissionError "refresh token revoked")
    else if AuthRepository.refreshTokenExpired now row.expiresAt then .error (permissionError "refresh token expired")
    else if A.hashToken token ≠ row.refreshTokenHash then .error (permissionError "refresh token mismatch")
    else .ok row

/-- The check of a refresh token's user. -/
def checkUser : Option UserRecord → Except Exc UserRecord
  | none => .error (permissionError "user unavailable")
  | some user => if user.status ≠ "active" then .error (permissionError "user unavailable") else .ok user

/-- The row and the answer of `_issue_tokens`, with the fresh token id as an
argument. -/
def newTokens (now : Time) (tokenId : TokenId) (user : UserRecord) (sessionId : String) :
    RefreshToken × LoginResponse τ :=
  let accessExp := now + A.accessTtlMinutes * 60 * second
  let refreshExp := now + A.refreshTtlDays * 86400 * second
  let accessToken := A.jwt.encode {
    typ := "access"
    tenantId := user.tenantId
    userId := user.userId
    role := some user.role
    sessionId := sessionId
    exp := accessExp / second }
  let refreshToken := A.jwt.encode {
    typ := "refresh"
    jti := some tokenId
    tenantId := user.tenantId
    userId := user.userId
    sessionId := sessionId
    exp := refreshExp / second }
  ({ tokenId := tokenId
     tenantId := user.tenantId
     userId := user.userId
     sessionId := sessionId
     refreshTokenHash := A.hashToken refreshToken
     expiresAt := refreshExp },
   { accessToken := accessToken
     refreshToken := refreshToken
     expiresIn := A.accessTtlMinutes * 60
     tenantId := user.tenantId
     userId := user.userId
     role := user.role
     sessionId := sessionId })

/-- `_issue_tokens`. -/
def issueTokens (now : Time) (tokenId : TokenId) (user : UserRecord) (sessionId : String) :
    EStateM Exc AuthRepository (LoginResponse τ) := fun repo =>
  let (row, response) := A.newTokens now tokenId user sessionId
  match repo.storeRefreshToken row with
  | .ok repo' => .ok response repo'
  | .error exc => .error exc repo

/-- `refresh`, with the fresh token id as an argument. -/
def refresh (now : Time) (newId : TokenId) (token : τ) : EStateM Exc AuthRepository (LoginResponse τ) := do
  let tokenId ← MonadExcept.ofExcept (A.presentedId now token)
  let row ← MonadExcept.ofExcept (A.checkToken now token ((← get).getRefreshToken tokenId))
  let user ← MonadExcept.ofExcept (checkUser ((← get).getUserById row.tenantId row.userId))
  -- rotation: the old token is revoked before the new one is stored
  modify (·.revokeRefreshToken tokenId)
  A.issueTokens now newId user row.sessionId

/-- `create_user`, with the random salt and the fresh user id as arguments. -/
def createUser (P : Pbkdf2) (now serverNow : Time) (salt : Bytes)
    (userId tenantId username password role status : String) : EStateM Exc AuthRepository UserRecord := do
  let passwordHash ← MonadExcept.ofExcept (P.hashPassword salt password)
  AuthRepository.createUser now serverNow userId tenantId username passwordHash role status

/-- The hash of a password that an update gives. -/
def updatedHash (P : Pbkdf2) (salt : Bytes) (password : Option String) : Except Exc (Option String) :=
  match password with
  | none => .ok none
  | some password => if password = "" then .ok none else (P.hashPassword salt password).map some

/-- `update_user`, with the random salt as an argument. -/
def updateUser (P : Pbkdf2) (salt : Bytes) (tenantId userId : String) (role status password : Option String) :
    EStateM Exc AuthRepository (Option UserRecord) := do
  let passwordHash ← MonadExcept.ofExcept (updatedHash P salt password)
  AuthRepository.updateUser tenantId userId { role, status, passwordHash }

/-- `bootstrap_admin_if_needed`, with the random salt and the fresh user id as
arguments. -/
def bootstrapAdminIfNeeded (P : Pbkdf2) (now serverNow : Time) (salt : Bytes)
    (userId tenantId username password : String) : EStateM Exc AuthRepository UserRecord := do
  let passwordHash ← MonadExcept.ofExcept (P.hashPassword salt password)
  AuthRepository.createBootstrapAdminIfNeeded now serverNow userId tenantId username passwordHash

/-- The checks of a login against its user. -/
def checkLogin (P : Pbkdf2) (password : String) : Option UserRecord → Except Exc UserRecord
  | none => .error (permissionError "invalid username or password")
  | some user =>
    if user.status ≠ "active" then .error (permissionError "user is disabled")
    else
      match P.verifyPassword password user.passwordHash with
      | .error exc => .error exc
      | .ok false => .error (permissionError "invalid username or password")
      | .ok true => .ok user

/-- `login`, with the fresh session and token ids as arguments. -/
def login (P : Pbkdf2) (now : Time) (sessionId tokenId tenantId username password : String) :
    EStateM Exc AuthRepository (LoginResponse τ) := do
  let user ← MonadExcept.ofExcept (checkLogin P password ((← get).getUserByUsername tenantId username))
  A.issueTokens now tokenId user sessionId

/-- `logout`. -/
def logout (now : Time) (token : τ) : EStateM Exc AuthRepository Unit := do
  let payload ← MonadExcept.ofExcept (A.decodeToken now token)
  let tokenId := payload.jti.getD ""
  if tokenId ≠ "" then modify (·.revokeRefreshToken tokenId)

theorem decode_of_decodeToken {now : Time} {token : τ} {payload : TokenPayload}
    (h : A.decodeToken now token = .ok payload) : A.jwt.decode now token = some payload := by
  unfold decodeToken at h
  split at h
  · cases h
  · rename_i hdecode
    rw [← Except.ok.inj h, hdecode]

theorem verify_of_decodeToken {now : Time} {token : τ} {payload : TokenPayload}
    (h : A.decodeToken now token = .ok payload) : A.jwt.verify token = some payload :=
  (Option.filter_eq_some_iff.1 (A.decode_of_decodeToken h)).1

theorem lt_of_decodeToken {now : Time} {token : τ} {payload : TokenPayload}
    (h : A.decodeToken now token = .ok payload) : now < payload.exp * second :=
  of_decide_eq_true (Option.filter_eq_some_iff.1 (A.decode_of_decodeToken h)).2

/-- An access token that is accepted is signed as one, is not expired, and says
who its context is. -/
theorem decodeAccessToken_ok {now : Time} {token : τ} {context : AuthContext}
    (h : A.decodeAccessToken now token = .ok context) :
    ∃ payload, A.jwt.verify token = some payload ∧ now < payload.exp * second ∧ payload.typ = "access" ∧
      payload.role = some context.role ∧ context.tenantId = payload.tenantId ∧ context.userId = payload.userId ∧
      context.sessionId = payload.sessionId := by
  unfold decodeAccessToken at h
  split at h
  · cases h
  · rename_i payload hdecode
    split at h
    · cases h
    · rename_i htyp
      split at h
      · cases h
      · rename_i role hrole
        rw [← Except.ok.inj h]
        exact ⟨payload, A.verify_of_decodeToken hdecode, A.lt_of_decodeToken hdecode, not_not.1 htyp, hrole, rfl, rfl, rfl⟩

/-- What does not decode now does not later. -/
theorem decodeToken_error_later {now now' : Time} (hle : now ≤ now') {token : τ} {exc : Exc}
    (h : A.decodeToken now token = .error exc) : A.decodeToken now' token = .error exc := by
  unfold decodeToken at h ⊢
  split at h
  · rename_i hnone
    have hnone' : A.jwt.decode now' token = none := by
      rw [Jwt.decode, Option.filter_eq_none_iff] at hnone ⊢
      intro payload hverify
      have hexpired := hnone payload hverify
      rw [decide_eq_true_iff, Int.not_lt] at hexpired ⊢
      exact Int.le_trans hexpired hle
    rw [hnone']
    exact h
  · cases h

/-- A valid refresh token is signed as one, under its token id. -/
theorem verify_of_presentedId {now : Time} {token : τ} {id : TokenId} (h : A.presentedId now token = .ok id) :
    ∃ payload, A.jwt.verify token = some payload ∧ payload.typ = "refresh" ∧ payload.jti.getD "" = id ∧ id ≠ "" := by
  unfold presentedId at h
  split at h
  · cases h
  · rename_i payload hdecode
    split at h
    · cases h
    · rename_i htyp
      split at h
      · cases h
      · rename_i hjti
        rw [← Except.ok.inj h]
        exact ⟨payload, A.verify_of_decodeToken hdecode, not_not.1 htyp, rfl, hjti⟩

theorem tokenId_of_presentedId {now : Time} {token : τ} {id : TokenId} (h : A.presentedId now token = .ok id) :
    A.tokenId token = some id := by
  obtain ⟨payload, hverify, -, hid, -⟩ := A.verify_of_presentedId h
  rw [tokenId, hverify, Option.map_some, hid]

/-- A token that passes the checks has a row that is not revoked. -/
theorem checkToken_ok {now : Time} {token : τ} {o : Option RefreshToken} {row : RefreshToken}
    (h : A.checkToken now token o = .ok row) : o = some row ∧ row.revoked = false := by
  unfold checkToken at h
  split at h
  · cases h
  · split at h
    · cases h
    · rename_i hrevoked
      split at h
      · cases h
      · split at h
        · cases h
        · rw [← Except.ok.inj h]; exact ⟨rfl, by simpa using hrevoked⟩

theorem checkUser_ok {o : Option UserRecord} {user : UserRecord} (h : checkUser o = .ok user) :
    o = some user ∧ user.status = "active" := by
  unfold checkUser at h
  split at h
  · cases h
  · split at h
    · cases h
    · rename_i hactive
      rw [← Except.ok.inj h]
      exact ⟨rfl, not_not.1 hactive⟩

theorem checkLogin_ok {P : Pbkdf2} {password : String} {o : Option UserRecord} {user : UserRecord}
    (h : checkLogin P password o = .ok user) : o = some user ∧ user.status = "active" := by
  unfold checkLogin at h
  split at h
  · cases h
  · split at h
    · cases h
    · rename_i hactive
      split at h
      · cases h
      · cases h
      · rw [← Except.ok.inj h]
        exact ⟨rfl, not_not.1 hactive⟩

/-- With a new token id `_issue_tokens` returns. -/
theorem issueTokens_of_none {now : Time} {id : TokenId} {user : UserRecord} {sessionId : String}
    {repo : AuthRepository} (h : repo.getRefreshToken id = none) :
    A.issueTokens now id user sessionId repo = .ok (A.newTokens now id user sessionId).2
      (repo.putToken (A.newTokens now id user sessionId).1) := by
  have hnone : repo.getRefreshToken (A.newTokens now id user sessionId).1.tokenId = none := h
  have hstore := repo.storeRefreshToken_of_none hnone
  simp only [issueTokens, hstore]

/-- `login` raises before it writes, or issues a pair. -/
theorem login_eq (P : Pbkdf2) (now : Time) (sessionId tokenId tenantId username password : String)
    (repo : AuthRepository) :
    A.login P now sessionId tokenId tenantId username password repo =
      match checkLogin P password (repo.getUserByUsername tenantId username) with
      | .error exc => .error exc repo
      | .ok user => A.issueTokens now tokenId user sessionId repo := by
  unfold login
  rw [get_bind]
  cases hlogin : checkLogin P password (repo.getUserByUsername tenantId username) with
  | error exc => rw [ofExcept_error_bind]
  | ok user => rw [ofExcept_ok_bind]

/-- `logout` revokes the token id that the token carries. -/
theorem logout_eq (now : Time) (token : τ) (repo : AuthRepository) :
    A.logout now token repo =
      match A.decodeToken now token with
      | .error exc => .error exc repo
      | .ok payload =>
        if payload.jti.getD "" = "" then .ok () repo else .ok () (repo.revokeRefreshToken (payload.jti.getD "")) := by
  unfold logout
  cases hdecode : A.decodeToken now token with
  | error exc => rw [ofExcept_error_bind]
  | ok payload =>
    rw [ofExcept_ok_bind]
    by_cases hjti : payload.jti.getD "" = ""
    · simp only [hjti, ne_eq, not_true_eq_false, ↓reduceIte]; rfl
    · simp only [hjti, ne_eq, not_false_eq_true, ↓reduceIte]; rfl

/-- `refresh` raises before it writes, or revokes the token and issues a pair. -/
theorem refresh_eq (now : Time) (newId : TokenId) (token : τ) (repo : AuthRepository) :
    A.refresh now newId token repo =
      match A.presentedId now token with
      | .error exc => .error exc repo
      | .ok tokenId =>
        match A.checkToken now token (repo.getRefreshToken tokenId) with
        | .error exc => .error exc repo
        | .ok row =>
          match checkUser (repo.getUserById row.tenantId row.userId) with
          | .error exc => .error exc repo
          | .ok user => A.issueTokens now newId user row.sessionId (repo.revokeRefreshToken tokenId) := by
  unfold refresh
  cases A.presentedId now token with
  | error exc => rw [ofExcept_error_bind]
  | ok tokenId =>
    rw [ofExcept_ok_bind, get_bind]
    cases hrow : A.checkToken now token (repo.getRefreshToken tokenId) with
    | error exc => rw [ofExcept_error_bind]; simp only [hrow]
    | ok row =>
      rw [ofExcept_ok_bind, get_bind]
      cases huser : checkUser (repo.getUserById row.tenantId row.userId) with
      | error exc => rw [ofExcept_error_bind]; simp only [hrow, huser]
      | ok user => rw [ofExcept_ok_bind, modify_bind]; simp only [hrow, huser]

theorem issueTokens_ok {now : Time} {id : TokenId} {user : UserRecord} {sessionId : String} {repo repo' : AuthRepository}
    {response : LoginResponse τ} (h : A.issueTokens now id user sessionId repo = .ok response repo') :
    response = (A.newTokens now id user sessionId).2 ∧ repo' = repo.putToken (A.newTokens now id user sessionId).1 := by
  unfold issueTokens at h
  dsimp only at h
  split at h
  · rename_i repo'' hstore
    cases h
    exact ⟨rfl, repo.storeRefreshToken_ok hstore⟩
  · cases h

/-- A refresh that returns has checked the token and its user, revoked the token
and issued a pair in its session. -/
theorem refresh_ok {now : Time} {newId : TokenId} {token : τ} {repo repo' : AuthRepository}
    {response : LoginResponse τ} (h : A.refresh now newId token repo = .ok response repo') :
    ∃ id row user, A.presentedId now token = .ok id ∧ A.checkToken now token (repo.getRefreshToken id) = .ok row ∧
      checkUser (repo.getUserById row.tenantId row.userId) = .ok user ∧
      response = (A.newTokens now newId user row.sessionId).2 ∧
      repo' = (repo.revokeRefreshToken id).putToken (A.newTokens now newId user row.sessionId).1 := by
  rw [A.refresh_eq] at h
  split at h
  · cases h
  · rename_i id hid
    split at h
    · cases h
    · rename_i row hrow
      split at h
      · cases h
      · rename_i user huser
        obtain ⟨hresponse, hrepo⟩ := A.issueTokens_ok h
        exact ⟨id, row, user, hid, hrow, huser, hresponse, hrepo⟩

end AuthService

/-- A service whose tokens are their payloads. -/
def AuthService.plain : AuthService TokenPayload where
  jwt := ⟨id, some, fun _ => rfl⟩
  hashToken payload := payload.jti.getD ""
  accessTtlMinutes := 30
  refreshTtlDays := 7

def alice : UserRecord where
  tenantId := "acme"
  userId := "u1"
  username := "alice"
  role := "employee"
  status := "active"
  passwordHash := "hash"
  createdAt := 0

end Ochestrate
