/-!
# Models of the auth layer

`app/auth/schemas.py`. The type of the tokens is a parameter: what a token is
on the wire is up to the JWT package.
-/

namespace Ochestrate

/-- Who a request is from, as its access token says. -/
structure AuthContext where
  tenantId : String
  userId : String
  role : String
  sessionId : String
  tokenExp : Int
  deriving DecidableEq, Repr

/-- A token pair and the identity it was issued to. -/
structure LoginResponse (τ : Type) where
  accessToken : τ
  refreshToken : τ
  tokenType : String := "bearer"
  expiresIn : Int
  tenantId : String
  userId : String
  role : String
  sessionId : String
  deriving DecidableEq

/-- `Field(min_length=6)` of the passwords. -/
def minPasswordLength : Nat := 6

structure LoginRequest where
  tenantId : String
  username : String
  password : String
  password_long : minPasswordLength ≤ password.length

/-- `RefreshRequest` -/
structure AuthApi.RefreshRequest (τ : Type) where
  refreshToken : τ

structure UserCreateRequest where
  tenantId : Option String := none
  username : String
  password : String
  role : String := "employee"
  status : String := "active"
  password_long : minPasswordLength ≤ password.length

structure UserUpdateRequest where
  role : Option String := none
  status : Option String := none
  password : Option String := none
  password_long : ∀ text ∈ password, minPasswordLength ≤ text.length

/-- A user without the password hash; `createdAt` in microseconds since the
epoch. -/
structure UserResponse where
  tenantId : String
  userId : String
  username : String
  role : String
  status : String
  createdAt : Int
  deriving DecidableEq

end Ochestrate
