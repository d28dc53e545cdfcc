import Ochestrate.Api.Errors
import Ochestrate.Auth.Service

/-!
# User and auth endpoints

`app/api/v1/users.py`, for the admins of a tenant, and `app/api/v1/auth.py`. What
the service draws, and the time, are arguments.
-/

namespace Ochestrate

/-- The response of a record. -/
def UserRecord.response (record : UserRecord) : UserResponse where
  tenantId := record.tenantId
  userId := record.userId
  username := record.username
  role := record.role
  status := record.status
  createdAt := record.createdAt

namespace UsersApi

/-- `_ensure_admin` -/
def ensureAdmin (auth : AuthContext) : EStateM HttpError AuthRepository Unit :=
  if auth.role ≠ "admin" then throw ⟨403, "admin role required"⟩ else pure ()

/-- `POST /users` -/
def createUser (P : Pbkdf2) (now serverNow : Time) (salt : Bytes) (userId : String) (payload : UserCreateRequest)
    (auth : AuthContext) : EStateM HttpError AuthRepository UserResponse := do
  ensureAdmin auth
  let record ← answering (fun _ => internalServerError)
    (AuthService.createUser P now serverNow salt userId auth.tenantId payload.username payload.password payload.role
      payload.status)
  return record.response

/-- `GET /users` -/
def listUsers (auth : AuthContext) : EStateM HttpError AuthRepository (List UserResponse) := do
  ensureAdmin auth
  return ((← get).listUsers auth.tenantId).map UserRecord.response

/-- `PATCH /users/{user_id}` -/
def updateUser (P : Pbkdf2) (salt : Bytes) (userId : String) (payload : UserUpdateRequest) (auth : AuthContext) :
    EStateM HttpError AuthRepository UserResponse := do
  ensureAdmin auth
  let user ← answering (fun _ => internalServerError)
    (AuthService.updateUser P salt auth.tenantId userId payload.role payload.status payload.password)
  match user with
  | none => throw ⟨404, "user not found"⟩
  | some user => return user.response

end UsersApi

namespace AuthApi

variable {τ : Type}

/-- The response to an exception of `login` and `refresh`. -/
def authError (exc : Exc) : HttpError :=
  match exc.type with
  | .permissionError => ⟨401, exc.message⟩
  | _ => internalServerError

/-- `POST /auth/login` -/
def login (A : AuthService τ) (P : Pbkdf2) (now : Time) (sessionId tokenId : String) (payload : LoginRequest) :
    EStateM HttpError AuthRepository (LoginResponse τ) :=
  answering authError (A.login P now sessionId tokenId payload.tenantId payload.username payload.password)

/-- `POST /auth/refresh` -/
def refresh (A : AuthService τ) (now : Time) (newId : TokenId) (payload : RefreshRequest τ) :
    EStateM HttpError AuthRepository (LoginResponse τ) :=
  answering authError (A.refresh now newId payload.refreshToken)

/-- `POST /auth/logout`. No exception is handled. -/
def logout (A : AuthService τ) (now : Time) (payload : RefreshRequest τ) :
    EStateM HttpError AuthRepository (Dict String Bool) := do
  answering (fun _ => internalServerError) (A.logout now payload.refreshToken)
  return Dict.empty.set "success" true

/-- The response to an exception of `bootstrap_admin_if_needed`. -/
def bootstrapError (exc : Exc) : HttpError :=
  match exc.type with
  | .permissionError => ⟨403, exc.message⟩
  | _ => internalServerError

/-- `POST /auth/bootstrap-admin`; `enabled` is the setting
`auth_bootstrap_admin_enabled`. -/
def bootstrapAdmin (P : Pbkdf2) (enabled : Bool) (now serverNow : Time) (salt : Bytes) (userId : String)
    (payload : UserCreateRequest) : EStateM HttpError AuthRepository UserResponse := do
  if !enabled then throw ⟨403, "bootstrap admin is disabled"⟩
  match payload.tenantId with
  | none => throw ⟨422, "tenant_id is required"⟩
  | some tenantId =>
    if tenantId = "" then throw ⟨422, "tenant_id is required"⟩
    let record ← answering bootstrapError
      (AuthService.bootstrapAdminIfNeeded P now serverNow salt userId tenantId payload.username payload.password)
    return record.response

end AuthApi

end Ochestrate
