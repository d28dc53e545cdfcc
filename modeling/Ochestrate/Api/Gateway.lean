import Ochestrate.Api.Users
import Ochestrate.Auth.AccessTokens
import Ochestrate.Framework.Strings
import Ochestrate.Tools.Base

/-!
# Requests and who they are from

`AuthContextMiddleware` of `app/middleware/auth_context.py` reads the bearer token
of every request, and `require_auth_context` of `app/auth/deps.py` refuses the
requests without a context. A `Gateway` answers requests one after the other:
those of the auth and user endpoints, and those of the other endpoints that
require a context, of which it only matters that they get it.

`handled` says what a request can do: it leaves the users as they are, it
bootstraps an empty store, or it writes a user of an administrator's own tenant.
An identity that is accepted was issued (`accepted_issued`), and one that no
active user has had for the time to live of an access token is not accepted any
more (`identity_expires`).
-/

namespace Ochestrate

/-- `auth_header.split(" ", 1)[1]` -/
def afterBlank (header : String) : Except Exc String :=
  match header.toList.dropWhile (· ≠ ' ') with
  | [] => .error ⟨.other, "list index out of range"⟩
  | _ :: rest => .ok (.ofList rest)

/-- The token that `dispatch` takes from the `Authorization` header, `""` if there
is none. -/
def bearerToken (B : Builtins) (header : String) : Except Exc (Option String) :=
  if "bearer ".toList <+: (B.lower header).toList then
    match afterBlank header with
    | .error exc => .error exc
    | .ok text => .ok (if strip text = "" then none else some (strip text))
  else .ok none

/-- `require_auth_context` -/
def requireAuthContext (context : Option AuthContext) : EStateM HttpError AuthRepository AuthContext :=
  match context with
  | none => throw ⟨401, "authentication required"⟩
  | some context => pure context

/-- What the endpoints of the gateway use. -/
structure Gateway (τ : Type) where
  auth : AuthService τ
  passwords : Pbkdf2
  text : Builtins
  /-- The token that a text is. -/
  tokenOf : String → τ
  /-- `auth_bootstrap_admin_enabled` -/
  bootstrapEnabled : Bool

inductive Endpoint (τ : Type)
  | login (payload : LoginRequest)
  | refresh (payload : AuthApi.RefreshRequest τ)
  | logout (payload : AuthApi.RefreshRequest τ)
  | bootstrapAdmin (payload : UserCreateRequest)
  | createUser (payload : UserCreateRequest)
  | listUsers
  | updateUser (userId : String) (payload : UserUpdateRequest)
  /-- The other endpoints that require a context; they do not use the auth service. -/
  | business

/-- A request: its `Authorization` header, and what it asks for. -/
structure ApiRequest (τ : Type) where
  authorization : String
  endpoint : Endpoint τ

inductive ApiAnswer (τ : Type)
  | tokens (response : LoginResponse τ)
  | user (response : UserResponse)
  | users (responses : List UserResponse)
  | success (body : Dict String Bool)
  /-- The handler ran with the context. -/
  | reached (context : AuthContext)

variable {τ : Type}

/-- The refresh token that an endpoint gets. -/
def Endpoint.presented : Endpoint τ → Option τ
  | refresh payload | logout payload => some payload.refreshToken
  | _ => none

/-- The endpoints for administrators. -/
def Endpoint.Administers : Endpoint τ → Prop
  | createUser _ | listUsers | updateUser _ _ => True
  | _ => False

namespace Gateway

variable (G : Gateway τ)

/-- `dispatch`: the context that the middleware gives to a request. No exception
of `decode_access_token` gets out of it. -/
def contextOf (now : Time) (header : String) : Except Exc (Option AuthContext) :=
  match bearerToken G.text header with
  | .error exc => .error exc
  | .ok none => .ok none
  | .ok (some token) =>
    match G.auth.decodeAccessToken now (G.tokenOf token) with
    | .error _ => .ok none
    | .ok context => .ok (some context)

def serve (now : Time) (draw : Draw) (context : Option AuthContext) :
    Endpoint τ → EStateM HttpError AuthRepository (ApiAnswer τ)
  | .login payload => do
    return .tokens (← AuthApi.login G.auth G.passwords now draw.first draw.second payload)
  | .refresh payload => do return .tokens (← AuthApi.refresh G.auth now draw.first payload)
  | .logout payload => do return .success (← AuthApi.logout G.auth now payload)
  | .bootstrapAdmin payload => do
    return .user (← AuthApi.bootstrapAdmin G.passwords G.bootstrapEnabled now draw.serverNow draw.salt draw.first
      payload)
  | .createUser payload => do
    let auth ← requireAuthContext context
    return .user (← UsersApi.createUser G.passwords now draw.serverNow draw.salt draw.first payload auth)
  | .listUsers => do
    let auth ← requireAuthContext context
    return .users (← UsersApi.listUsers auth)
  | .updateUser userId payload => do
    let auth ← requireAuthContext context
    return .user (← UsersApi.updateUser G.passwords draw.salt userId payload auth)
  | .business => do return .reached (← requireAuthContext context)

/-- The middleware and the endpoint. -/
def answer (now : Time) (draw : Draw) (request : ApiRequest τ) :
    EStateM HttpError AuthRepository (ApiAnswer τ) :=
  match G.contextOf now request.authorization with
  | .error _ => throw internalServerError
  | .ok context => G.serve now draw context request.endpoint

/-- The access token that a header presents. -/
def headerToken (header : String) : Option τ :=
  match bearerToken G.text header with
  | .ok (some token) => some (G.tokenOf token)
  | _ => none

/-- The tokens of a request: one in the header, one in the body. -/
def presented (request : ApiRequest τ) : List τ :=
  (G.headerToken request.authorization).toList ++ request.endpoint.presented.toList

end Gateway

/-- The tokens that an answer holds. -/
def answeredTokens : EStateM.Result HttpError AuthRepository (ApiAnswer τ) → List (LoginResponse τ)
  | .ok (.tokens response) _ => [response]
  | _ => []

inductive GatewayEvent (τ : Type)
  | tick (d : Nat)
  | request (request : ApiRequest τ) (draw : Draw)

/-- The state after a request. -/
def Gateway.after (G : Gateway τ) (s : AuthRun τ) (draw : Draw) (request : ApiRequest τ) : AuthRun τ where
  now := s.now
  repo := finalState (G.answer s.now draw request s.repo)
  drawn := draw.first :: draw.second :: s.drawn
  issued := s.issued ++ answeredTokens (G.answer s.now draw request s.repo)

/-- The machine of the requests: `uuid4` draws new ids, and a token that verifies
was issued. -/
def gateway [DecidableEq τ] (G : Gateway τ) : Machine (AuthRun τ) (GatewayEvent τ) where
  step s
    | .tick d => some { s with now := s.now + d }
    | .request request draw =>
      if s.Fresh draw ∧ ∀ token ∈ G.presented request, s.Genuine G.auth token then
        some (G.after s draw request)
      else none

/-! ## What a request can do -/

/-- A request leaves the users as they are; it creates the first of them; or it
writes a user of the tenant of the administrator that it is from. -/
inductive Handled (G : Gateway τ) (s : AuthRun τ) (draw : Draw) (request : ApiRequest τ) :
    AuthRepository → List (LoginResponse τ) → Prop
  | kept {call : AuthCall τ} {repo' : AuthRepository} {issued : List (LoginResponse τ)}
      (h : Effect G.auth s draw call repo' issued) (husers : repo'.users = s.repo.users) :
      Handled G s draw request repo' issued
  | bootstrapped {payload : UserCreateRequest} {user : UserRecord} (hendpoint : request.endpoint = .bootstrapAdmin payload)
      (henabled : G.bootstrapEnabled = true) (hempty : s.repo.isEmpty = true)
      (htenant : payload.tenantId = some user.tenantId) (hadmin : user.role = "admin" ∧ user.status = "active") :
      Handled G s draw request (s.repo.putUser user) []
  | administered {context : AuthContext} {user : UserRecord} (hendpoint : request.endpoint.Administers)
      (hcontext : G.contextOf s.now request.authorization = .ok (some context)) (hadmin : context.role = "admin")
      (htenant : user.tenantId = context.tenantId) : Handled G s draw request (s.repo.putUser user) []

namespace AuthService

variable (A : AuthService τ) {repo : AuthRepository}

theorem users_issueTokens (now : Time) (id : TokenId) (user : UserRecord) (sessionId : String) :
    (finalState (A.issueTokens now id user sessionId repo)).users = repo.users := by
  cases h : A.issueTokens now id user sessionId repo with
  | ok response repo' =>
    obtain ⟨-, rfl⟩ := A.issueTokens_ok h
    rfl
  | error exc repo' =>
    unfold issueTokens at h
    dsimp only at h
    split at h
    · cases h
    · obtain ⟨-, rfl⟩ := EStateM.Result.error.inj h
      rfl

theorem users_login (P : Pbkdf2) (now : Time) (sessionId tokenId tenantId username password : String) :
    (finalState (A.login P now sessionId tokenId tenantId username password repo)).users = repo.users := by
  rw [A.login_eq]
  split
  · rfl
  · exact A.users_issueTokens _ _ _ _

theorem users_refresh (now : Time) (newId : TokenId) (token : τ) :
    (finalState (A.refresh now newId token repo)).users = repo.users := by
  rw [A.refresh_eq]
  split
  · rfl
  · split
    · rfl
    · split
      · rfl
      · rw [A.users_issueTokens, AuthRepository.users_revokeRefreshToken]

theorem users_logout (now : Time) (token : τ) : (finalState (A.logout now token repo)).users = repo.users := by
  rw [A.logout_eq]
  split
  · rfl
  · split
    · rfl
    · exact repo.users_revokeRefreshToken _

/-- A bootstrap changes nothing, or it creates the administrator of an empty store. -/
theorem bootstrap_final (P : Pbkdf2) (now serverNow : Time) (salt : Bytes) (userId tenantId username password : String)
    (repo : AuthRepository) :
    finalState (bootstrapAdminIfNeeded P now serverNow salt userId tenantId username password repo) = repo ∨
      repo.isEmpty = true ∧ ∃ user : UserRecord, user.tenantId = tenantId ∧ user.role = "admin" ∧
        user.status = "active" ∧
        finalState (bootstrapAdminIfNeeded P now serverNow salt userId tenantId username password repo) =
          repo.putUser user := by
  unfold bootstrapAdminIfNeeded
  cases P.hashPassword salt password with
  | error exc => exact .inl rfl
  | ok hash =>
    rw [ofExcept_ok_bind]
    unfold AuthRepository.createBootstrapAdminIfNeeded
    rw [get_bind]
    cases repo.getUserByUsername tenantId username with
    | some user => exact .inl rfl
    | none =>
      dsimp only
      rw [get_bind]
      by_cases hempty : repo.isEmpty = true
      · rw [if_pos hempty]
        obtain ⟨createdAt, hcreate⟩ :=
          AuthRepository.createUser_of_isEmpty hempty now serverNow userId tenantId username hash "admin" "active"
        exact .inr ⟨hempty, _, rfl, rfl, rfl, congrArg finalState hcreate⟩
      · rw [if_neg hempty]
        exact .inl rfl

/-- A creation changes nothing, or it writes a user of the tenant. -/
theorem createUser_final (P : Pbkdf2) (now serverNow : Time) (salt : Bytes)
    (userId tenantId username password role status : String) (repo : AuthRepository) :
    finalState (createUser P now serverNow salt userId tenantId username password role status repo) = repo ∨
      ∃ user : UserRecord, user.tenantId = tenantId ∧
        finalState (createUser P now serverNow salt userId tenantId username password role status repo) =
          repo.putUser user := by
  unfold createUser
  cases P.hashPassword salt password with
  | error exc => exact .inl rfl
  | ok hash =>
    rw [ofExcept_ok_bind]
    rcases repo.createUser_cases now serverNow userId tenantId username hash role status with ⟨exc, h⟩ | ⟨createdAt, h⟩
    · exact .inl (congrArg finalState h)
    · exact .inr ⟨_, rfl, congrArg finalState h⟩

/-- An update changes nothing, or it writes a user of the tenant. -/
theorem updateUser_final (P : Pbkdf2) (salt : Bytes) (tenantId userId : String) (role status password : Option String)
    (repo : AuthRepository) :
    finalState (updateUser P salt tenantId userId role status password repo) = repo ∨
      ∃ user : UserRecord, user.tenantId = tenantId ∧
        finalState (updateUser P salt tenantId userId role status password repo) = repo.putUser user := by
  unfold updateUser
  cases updatedHash P salt password with
  | error exc => exact .inl rfl
  | ok given =>
    rw [ofExcept_ok_bind]
    rcases repo.updateUser_cases tenantId userId { role, status, passwordHash := given } with h | ⟨user, huser, h⟩
    · exact .inl (congrArg finalState h)
    · exact .inr ⟨user.withFields _, (AuthRepository.getUserById_some huser).2.1, congrArg finalState h⟩

end AuthService

theorem finalState_bind_pure {ε σ α β : Type} {x : EStateM ε σ α} {f : α → β} {s : σ} :
    finalState ((x >>= fun a => pure (f a)) s) = finalState (x s) := by
  cases hx : x s with
  | ok a s' => rw [bind_ok hx]; rfl
  | error e s' => rw [bind_error hx]; rfl

theorem answeredTokens_bind_pure {α : Type} {x : EStateM HttpError AuthRepository α} {f : α → ApiAnswer τ}
    (hf : ∀ a repo, answeredTokens (.ok (f a) repo) = []) (repo : AuthRepository) :
    answeredTokens ((x >>= fun a => pure (f a)) repo) = [] := by
  cases hx : x repo with
  | ok a repo' => rw [bind_ok hx]; exact hf a repo'
  | error e repo' => rw [bind_error hx]; rfl

/-- The tokens of an answer are those that the service issues. -/
theorem answeredTokens_answering {handler : Exc → HttpError} {x : EStateM Exc AuthRepository (LoginResponse τ)}
    (repo : AuthRepository) :
    answeredTokens ((answering handler x >>= fun response => pure (.tokens response)) repo) =
      issuedBy ((x >>= fun response => pure (.tokens response)) repo) := by
  cases hx : x repo with
  | ok response repo' =>
    have hanswer : answering handler x repo = .ok response repo' := by rw [answering, hx]
    rw [bind_ok hx, bind_ok hanswer]
    rfl
  | error exc repo' =>
    have hanswer : answering handler x repo = .error (handler exc) repo' := by rw [answering, hx]
    rw [bind_error hx, bind_error hanswer]
    rfl

/-- The endpoint changes nothing, or it is enabled and runs the bootstrap. -/
theorem bootstrapAdmin_final (P : Pbkdf2) (enabled : Bool) (now serverNow : Time) (salt : Bytes) (userId : String)
    (payload : UserCreateRequest) (repo : AuthRepository) :
    finalState (AuthApi.bootstrapAdmin P enabled now serverNow salt userId payload repo) = repo ∨
      enabled = true ∧ ∃ tenantId, payload.tenantId = some tenantId ∧
        finalState (AuthApi.bootstrapAdmin P enabled now serverNow salt userId payload repo) =
          finalState (AuthService.bootstrapAdminIfNeeded P now serverNow salt userId tenantId payload.username
            payload.password repo) := by
  unfold AuthApi.bootstrapAdmin
  cases enabled with
  | false => exact .inl rfl
  | true =>
    cases payload.tenantId with
    | none => exact .inl rfl
    | some tenantId =>
      by_cases hempty : tenantId = ""
      · subst hempty
        exact .inl rfl
      · refine .inr ⟨rfl, tenantId, rfl, ?_⟩
        dsimp only
        rw [if_neg hempty]
        exact finalState_bind_pure.trans finalState_answering

/-- What an endpoint for administrators writes is a user of the caller's tenant. -/
def WritesAs (auth : AuthContext) (repo repo' : AuthRepository) : Prop :=
  repo' = repo ∨ auth.role = "admin" ∧ ∃ user : UserRecord, user.tenantId = auth.tenantId ∧ repo' = repo.putUser user

theorem ensureAdmin_bind {α : Type} {auth : AuthContext} {repo : AuthRepository}
    {x : EStateM HttpError AuthRepository α}
    (hx : finalState (x repo) = repo ∨
      ∃ user : UserRecord, user.tenantId = auth.tenantId ∧ finalState (x repo) = repo.putUser user) :
    WritesAs auth repo (finalState ((UsersApi.ensureAdmin auth >>= fun _ => x) repo)) := by
  by_cases hadmin : auth.role = "admin"
  · rw [UsersApi.ensureAdmin, if_neg (not_not.2 hadmin), pure_bind]
    exact hx.imp id fun hx => ⟨hadmin, hx⟩
  · rw [UsersApi.ensureAdmin, if_pos hadmin]
    exact .inl rfl

theorem UsersApi.createUser_writes (P : Pbkdf2) (now serverNow : Time) (salt : Bytes) (userId : String)
    (payload : UserCreateRequest) (auth : AuthContext) (repo : AuthRepository) :
    WritesAs auth repo (finalState (UsersApi.createUser P now serverNow salt userId payload auth repo)) := by
  refine ensureAdmin_bind ?_
  rw [finalState_bind_pure, finalState_answering]
  exact AuthService.createUser_final ..

theorem UsersApi.updateUser_writes (P : Pbkdf2) (salt : Bytes) (userId : String) (payload : UserUpdateRequest)
    (auth : AuthContext) (repo : AuthRepository) :
    WritesAs auth repo (finalState (UsersApi.updateUser P salt userId payload auth repo)) := by
  refine ensureAdmin_bind ?_
  have hfinal := AuthService.updateUser_final P salt auth.tenantId userId payload.role payload.status payload.password repo
  rw [← @finalState_answering _ _ fun _ => internalServerError] at hfinal
  cases hupdate : answering (fun _ => internalServerError)
      (AuthService.updateUser P salt auth.tenantId userId payload.role payload.status payload.password) repo with
  | error e repo' =>
    rw [hupdate] at hfinal
    rw [bind_error hupdate]
    exact hfinal
  | ok user repo' =>
    rw [hupdate] at hfinal
    rw [bind_ok hupdate]
    cases user <;> exact hfinal

variable {G : Gateway τ} {s : AuthRun τ} {draw : Draw} {request : ApiRequest τ}

theorem Handled.nothing {repo' : AuthRepository} (h : repo' = s.repo) : Handled G s draw request repo' [] := by
  have heffect : Effect G.auth s draw .cleanup repo' [] := .quiet (.of_eq (congrArg _ h))
  exact .kept heffect (congrArg _ h)

theorem Handled.written {auth : AuthContext} {repo' : AuthRepository} (hendpoint : request.endpoint.Administers)
    (hcontext : G.contextOf s.now request.authorization = .ok (some auth)) (h : WritesAs auth s.repo repo') :
    Handled G s draw request repo' [] := by
  rcases h with h | ⟨hadmin, user, htenant, rfl⟩
  · exact .nothing h
  · exact .administered hendpoint hcontext hadmin htenant

/-- An endpoint of an administrator: without a context it does nothing. -/
theorem authorized_handled (hendpoint : request.endpoint.Administers) {context : Option AuthContext}
    (hcontext : G.contextOf s.now request.authorization = .ok context) {α : Type}
    {x : AuthContext → EStateM HttpError AuthRepository α} {f : α → ApiAnswer τ}
    (hf : ∀ a repo, answeredTokens (.ok (f a) repo) = [])
    (hwrites : ∀ auth, WritesAs auth s.repo (finalState (x auth s.repo))) :
    Handled G s draw request
      (finalState ((requireAuthContext context >>= fun auth => x auth >>= fun a => pure (f a)) s.repo))
      (answeredTokens ((requireAuthContext context >>= fun auth => x auth >>= fun a => pure (f a)) s.repo)) := by
  cases context with
  | none => exact .nothing rfl
  | some auth =>
    rw [requireAuthContext, pure_bind, answeredTokens_bind_pure hf, finalState_bind_pure]
    exact .written hendpoint hcontext (hwrites auth)

/-- What the endpoint of a request does. -/
theorem serve_handled (hfirst : s.repo.getRefreshToken draw.first = none)
    (hsecond : s.repo.getRefreshToken draw.second = none) {context : Option AuthContext}
    (hcontext : G.contextOf s.now request.authorization = .ok context) :
    Handled G s draw request (finalState (G.serve s.now draw context request.endpoint s.repo))
      (answeredTokens (G.serve s.now draw context request.endpoint s.repo)) := by
  cases hendpoint : request.endpoint with
  | login payload =>
    have heffect := perform_effect G.auth G.passwords hfirst hsecond
      (.login payload.tenantId payload.username payload.password)
    rw [AuthService.perform, finalState_bind_pure] at heffect
    rw [Gateway.serve, finalState_bind_pure, AuthApi.login, finalState_answering, answeredTokens_answering]
    exact .kept heffect (G.auth.users_login _ _ _ _ _ _ _)
  | refresh payload =>
    have heffect := perform_effect G.auth G.passwords hfirst hsecond (.refresh payload.refreshToken)
    rw [AuthService.perform, finalState_bind_pure] at heffect
    rw [Gateway.serve, finalState_bind_pure, AuthApi.refresh, finalState_answering, answeredTokens_answering]
    exact .kept heffect (G.auth.users_refresh _ _ _)
  | logout payload =>
    have heffect : Effect G.auth s draw (.logout payload.refreshToken) _ [] :=
      .quiet ((logout_shrinks G.auth s.now payload.refreshToken).finalState s.repo)
    rw [Gateway.serve, answeredTokens_bind_pure (fun _ _ => rfl), finalState_bind_pure, AuthApi.logout,
      finalState_bind_pure, finalState_answering]
    exact .kept heffect (G.auth.users_logout _ _)
  | bootstrapAdmin payload =>
    rw [Gateway.serve, answeredTokens_bind_pure (fun _ _ => rfl), finalState_bind_pure]
    rcases bootstrapAdmin_final G.passwords G.bootstrapEnabled s.now draw.serverNow draw.salt draw.first payload s.repo with
      h | ⟨henabled, tenantId, htenant, h⟩
    · exact .nothing h
    · rw [h]
      rcases AuthService.bootstrap_final G.passwords s.now draw.serverNow draw.salt draw.first tenantId
        payload.username payload.password s.repo with h | ⟨hempty, user, rfl, hrole, hstatus, h⟩
      · exact .nothing h
      · rw [h]
        exact .bootstrapped hendpoint henabled hempty htenant ⟨hrole, hstatus⟩
  | createUser payload =>
    exact authorized_handled (hendpoint ▸ trivial) hcontext (fun _ _ => rfl) fun _ => UsersApi.createUser_writes ..
  | listUsers =>
    exact authorized_handled (hendpoint ▸ trivial) hcontext (fun _ _ => rfl) fun _ => ensureAdmin_bind (.inl rfl)
  | updateUser userId payload =>
    exact authorized_handled (hendpoint ▸ trivial) hcontext (fun _ _ => rfl) fun _ => UsersApi.updateUser_writes ..
  | business =>
    cases context with
    | none => exact .nothing rfl
    | some auth => exact .nothing rfl

theorem answer_handled (hfirst : s.repo.getRefreshToken draw.first = none)
    (hsecond : s.repo.getRefreshToken draw.second = none) :
    Handled G s draw request (finalState (G.answer s.now draw request s.repo))
      (answeredTokens (G.answer s.now draw request s.repo)) := by
  unfold Gateway.answer
  cases hcontext : G.contextOf s.now request.authorization with
  | error exc => exact .nothing rfl
  | ok context => exact serve_handled hfirst hsecond hcontext

section Steps

variable [DecidableEq τ] {s' : AuthRun τ} {e : GatewayEvent τ}

/-- What a step does: time passes, or a request is handled. -/
theorem gateway_step (hs : Sound G.auth s) (h : (gateway G).step s e = some s') :
    (∃ d : Nat, e = .tick d ∧ s' = { s with now := s.now + d }) ∨
    ∃ request draw issued, e = .request request draw ∧ s.Fresh draw ∧
      (∀ token ∈ G.presented request, s.Genuine G.auth token) ∧
      s' = ⟨s.now, s'.repo, draw.first :: draw.second :: s.drawn, s.issued ++ issued⟩ ∧
      Handled G s draw request s'.repo issued := by
  cases e with
  | tick d => exact .inl ⟨d, rfl, (Option.some.inj h).symm⟩
  | request request draw =>
    obtain ⟨⟨hfresh, hgenuine⟩, h⟩ := Option.ite_none_right_eq_some.1 h
    obtain rfl := Option.some.inj h
    exact .inr ⟨request, draw, _, rfl, hfresh, hgenuine, rfl,
      answer_handled (hs.not_stored hfresh.1) (hs.not_stored hfresh.2.1)⟩

theorem gateway_sound (G : Gateway τ) : (gateway G).Keeps (fun _ _ => True) (Sound G.auth) := by
  intro s e s' _ h hs
  rcases gateway_step hs h with ⟨d, rfl, rfl⟩ | ⟨request, draw, issued, rfl, hfresh, -, hs', hhandled⟩
  · exact hs.shrink (.refl _) rfl (List.Subset.refl _)
  · rw [hs']
    generalize s'.repo = repo' at hhandled
    cases hhandled with
    | kept heffect => exact hs.effect hfresh heffect
    | bootstrapped | administered =>
      have heffect : ∀ user, Effect G.auth s draw .cleanup (s.repo.putUser user) [] := fun user => .quiet (.of_eq rfl)
      exact hs.effect hfresh (heffect _)

theorem gateway_now (G : Gateway τ) (t : Time) : (gateway G).Keeps (fun _ _ => True) fun s => t ≤ s.now := by
  intro s e s' _ h ht
  cases e with
  | tick d =>
    obtain rfl := Option.some.inj h
    exact Int.le_trans ht (Int.le_add_of_nonneg_right (Int.natCast_nonneg d))
  | request request draw =>
    obtain ⟨-, h⟩ := Option.ite_none_right_eq_some.1 h
    obtain rfl := Option.some.inj h
    exact ht

end Steps

/-! ## Who a request is from -/

/-- An active user has the identity. -/
def AuthRepository.HasActive (repo : AuthRepository) (tenantId userId role : String) : Prop :=
  ∃ user ∈ repo.users.values, user.status = "active" ∧ user.tenantId = tenantId ∧ user.userId = userId ∧ user.role = role

/-- The access token of the response is not accepted from then on. -/
def AuthService.ExpiresBy (A : AuthService τ) (t : Time) (r : LoginResponse τ) : Prop :=
  ∀ payload, A.jwt.verify r.accessToken = some payload → payload.exp * second ≤ t

/-- The end of life of the access tokens that are issued now. -/
def AuthService.accessEnd (A : AuthService τ) (now : Time) : Time := now + A.accessTtlMinutes * 60 * second

/-- Tokens are issued to active users, for the time to live. -/
theorem Effect.issued_to {A : AuthService τ} {call : AuthCall τ} {repo' : AuthRepository}
    {issued : List (LoginResponse τ)} (h : Effect A s draw call repo' issued) {r : LoginResponse τ} (hr : r ∈ issued) :
    s.repo.HasActive r.tenantId r.userId r.role ∧ A.ExpiresBy (A.accessEnd s.now) r := by
  have hnew : ∀ (id : TokenId) (user : UserRecord) (sessionId : String), user ∈ s.repo.users.values →
      user.status = "active" → r = (A.newTokens s.now id user sessionId).2 →
      s.repo.HasActive r.tenantId r.userId r.role ∧ A.ExpiresBy (A.accessEnd s.now) r := by
    rintro id user sessionId huser hactive rfl
    refine ⟨⟨user, huser, hactive, rfl, rfl, rfl⟩, fun payload hverify => ?_⟩
    obtain rfl := Option.some.inj ((A.jwt.verify_encode _).symm.trans hverify)
    exact Int.ediv_mul_le _ (by decide)
  cases h with
  | quiet => cases hr
  | login huser hactive =>
    exact hnew _ _ _ (AuthRepository.getUserByUsername_some huser).1 hactive (List.mem_singleton.1 hr)
  | refresh hid hrow hlive huser hactive =>
    exact hnew _ _ _ (AuthRepository.getUserById_some huser).1 hactive (List.mem_singleton.1 hr)

/-- An issued access token that is not accepted has expired. -/
theorem Sound.expiresBy {A : AuthService τ} (hs : Sound A s) {r : LoginResponse τ} (hr : r ∈ s.issued) {now : Time}
    (h : ∃ exc, A.decodeAccessToken now r.accessToken = .error exc) : A.ExpiresBy now r := by
  obtain ⟨exc, h⟩ := h
  obtain ⟨-, id, row, -, hissued⟩ := hs.drawn r hr
  obtain ⟨exp, haccess⟩ := hissued.access
  intro payload hverify
  obtain rfl := Option.some.inj (haccess.symm.trans hverify)
  by_contra hlive
  rw [Int.not_le] at hlive
  have hdecode : A.jwt.decode now r.accessToken = some _ := Option.filter_eq_some_iff.2 ⟨haccess, decide_eq_true hlive⟩
  simp [AuthService.decodeAccessToken, AuthService.decodeToken, hdecode] at h

/-- A context says what an issued token says that has not expired. -/
theorem accepted_issued (hs : Sound G.auth s) {header : String}
    (hg : ∀ token ∈ G.headerToken header, s.Genuine G.auth token) {context : AuthContext}
    (h : G.contextOf s.now header = .ok (some context)) :
    ∃ r ∈ s.issued, r.tenantId = context.tenantId ∧ r.userId = context.userId ∧ r.role = context.role ∧
      ¬ G.auth.ExpiresBy s.now r := by
  unfold Gateway.contextOf at h
  split at h
  · cases h
  · cases h
  · rename_i text hbearer
    split at h
    · cases h
    · rename_i context' hdecode
      obtain rfl := Option.some.inj (Except.ok.inj h)
      have htoken : G.headerToken header = some (G.tokenOf text) := by rw [Gateway.headerToken, hbearer]
      obtain ⟨payload, hverify, hexp, htyp, hrole, ht, hu, -⟩ := G.auth.decodeAccessToken_ok hdecode
      obtain ⟨r, hr, id, -, row, hissued, ⟨haccess, -⟩ | ⟨-, hrefresh, -⟩⟩ := hs.genuine (hg _ htoken) hverify
      · obtain ⟨exp, hsays⟩ := hissued.access
        rw [haccess] at hsays
        obtain rfl := Option.some.inj (hverify.symm.trans hsays)
        refine ⟨r, hr, ht.symm, hu.symm, Option.some.inj hrole, fun hexpired => ?_⟩
        exact absurd (hexpired _ (haccess ▸ hverify)) (Int.not_le.2 hexp)
      · exact absurd (htyp.symm.trans hrefresh) (by decide)

/-- The header of a request that is taken. -/
theorem header_genuine (hg : ∀ token ∈ G.presented request, s.Genuine G.auth token) :
    ∀ token ∈ G.headerToken request.authorization, s.Genuine G.auth token :=
  fun token htoken => hg token (List.mem_append_left _ (Option.mem_toList.2 htoken))

/-- The access tokens of the identities expire by then. -/
def Outdated (G : Gateway τ) (Q : String → String → String → Prop) (t : Time) (s : AuthRun τ) : Prop :=
  ∀ r ∈ s.issued, Q r.tenantId r.userId r.role → G.auth.ExpiresBy t r

theorem Outdated.mono {Q : String → String → String → Prop} {t t' : Time} (h : Outdated G Q t s) (hle : t ≤ t') :
    Outdated G Q t' s :=
  fun r hr hq payload hverify => Int.le_trans (h r hr hq payload hverify) hle

/-- An identity that is accepted is not outdated. -/
theorem Outdated.not_accepted {Q : String → String → String → Prop} {t : Time} (h : Outdated G Q t s)
    (hs : Sound G.auth s) (ht : t ≤ s.now) {header : String}
    (hg : ∀ token ∈ G.headerToken header, s.Genuine G.auth token) {context : AuthContext}
    (hcontext : G.contextOf s.now header = .ok (some context)) : ¬ Q context.tenantId context.userId context.role := by
  obtain ⟨r, hr, htenant, huser, hrole, hexpires⟩ := accepted_issued hs hg hcontext
  intro hq
  rw [← htenant, ← huser, ← hrole] at hq
  exact hexpires (h.mono ht r hr hq)

/-- A request issues a token to one of the identities only if an active user has it. -/
theorem Outdated.handled {Q : String → String → String → Prop} {t : Time} (h : Outdated G Q t s)
    {repo' : AuthRepository} {issued : List (LoginResponse τ)} (hhandled : Handled G s draw request repo' issued)
    (hissued : ∀ tenantId userId role, s.repo.HasActive tenantId userId role → Q tenantId userId role →
      G.auth.accessEnd s.now ≤ t) {s' : AuthRun τ} (hs' : s'.issued = s.issued ++ issued) : Outdated G Q t s' := by
  intro r hr hq
  rw [hs', List.mem_append] at hr
  rcases hr with hr | hr
  · exact h r hr hq
  · cases hhandled with
    | kept heffect =>
      obtain ⟨hactive, hexpires⟩ := heffect.issued_to hr
      exact fun payload hverify => Int.le_trans (hexpires payload hverify) (hissued _ _ _ hactive hq)
    | bootstrapped | administered => cases hr

section Expiry

variable [DecidableEq τ]

/-- In every run no access token lives longer than those that are issued now. -/
theorem gateway_expires (G : Gateway τ) : (gateway G).Keeps (fun _ _ => True)
    fun s => Sound G.auth s ∧ Outdated G (fun _ _ _ => True) (G.auth.accessEnd s.now) s := by
  rintro s e s' _ h ⟨hs, hexpires⟩
  refine ⟨gateway_sound G trivial h hs, ?_⟩
  rcases gateway_step hs h with ⟨d, rfl, rfl⟩ | ⟨request, draw, issued, rfl, -, -, hs', hhandled⟩
  · exact hexpires.mono (Int.add_le_add_right (Int.le_add_of_nonneg_right (Int.natCast_nonneg d)) _)
  · rw [hs']
    exact hexpires.handled hhandled (fun _ _ _ _ _ => Int.le_refl _) rfl

/-- While no active user has one of the identities, no token is issued to it. -/
theorem outdated_keeps (G : Gateway τ) (Q : String → String → String → Prop) (t : Time) :
    (gateway G).Keeps (fun s _ => ∀ tenantId userId role, s.repo.HasActive tenantId userId role →
      ¬ Q tenantId userId role) fun s => Sound G.auth s ∧ Outdated G Q t s := by
  rintro s e s' hnone h ⟨hs, houtdated⟩
  refine ⟨gateway_sound G trivial h hs, ?_⟩
  rcases gateway_step hs h with ⟨d, rfl, rfl⟩ | ⟨request, draw, issued, rfl, -, -, hs', hhandled⟩
  · exact houtdated
  · rw [hs']
    exact houtdated.handled hhandled (fun _ _ _ hactive hq => absurd hq (hnone _ _ _ hactive)) rfl

/-- Whoever a request with a context is from was an active user, with the role
that the context says, less than the time to live of an access token ago. -/
theorem accepted_was_active (G : Gateway τ) (mode : RepoMode) (now₀ : Time) {es : List (GatewayEvent τ)} {s : AuthRun τ}
    (h : (gateway G).run (.start mode now₀) es = some s) {header : String}
    (hg : ∀ token ∈ G.headerToken header, s.Genuine G.auth token) {context : AuthContext}
    (hcontext : G.contextOf s.now header = .ok (some context)) :
    ∃ es₁ e es₂ s₁, es = es₁ ++ e :: es₂ ∧ (gateway G).run (.start mode now₀) es₁ = some s₁ ∧
      s₁.repo.HasActive context.tenantId context.userId context.role ∧ s₁.now ≤ s.now ∧
      s.now < G.auth.accessEnd s₁.now := by
  have hsound : ∀ {es s}, (gateway G).run (.start mode now₀) es = some s → Sound G.auth s :=
    fun h => (gateway G).run_stays (gateway_sound G) h (.start G.auth mode now₀)
  obtain ⟨r, hr, htenant, huser, hrole, hexpires⟩ := accepted_issued (hsound h) hg hcontext
  obtain ⟨es₁, e, es₂, s₁, s₂, hes, h₁, h₂, h₃, hold, hnew⟩ := (gateway G).run_acquires
    (P := fun s => r ∈ s.issued) h (fun hr => nomatch hr) hr
  have hnow : s₂.now ≤ s.now := (gateway G).run_stays (gateway_now G s₂.now) h₃ (Int.le_refl _)
  rcases gateway_step (hsound h₁) h₂ with ⟨d, rfl, rfl⟩ | ⟨request, draw, issued, rfl, -, -, hs₂, hhandled⟩
  · exact absurd hnew hold
  · rw [hs₂] at hnew hnow
    have hissued : r ∈ issued := (List.mem_append.1 hnew).resolve_left hold
    generalize s₂.repo = repo₂ at hhandled
    cases hhandled with
    | kept heffect =>
      obtain ⟨hactive, hby⟩ := heffect.issued_to hissued
      rw [htenant, huser, hrole] at hactive
      refine ⟨es₁, _, es₂, s₁, hes, h₁, hactive, hnow, Int.not_le.1 fun hle => hexpires fun payload hverify => ?_⟩
      exact Int.le_trans (hby payload hverify) hle
    | bootstrapped | administered => cases hissued

/-- In every run, from any state on: an identity that no active user has, because
its user was disabled or given another role or never existed, is accepted for the
time to live of an access token and no longer. -/
theorem identity_expires (G : Gateway τ) (mode : RepoMode) (now₀ : Time) {es es' : List (GatewayEvent τ)}
    {s s' : AuthRun τ} (h : (gateway G).run (.start mode now₀) es = some s) (h' : (gateway G).run s es' = some s')
    {tenantId userId role : String}
    (hnone : (gateway G).Meets (fun s _ => ¬ s.repo.HasActive tenantId userId role) s es')
    (hpast : s.now + G.auth.accessTtlMinutes * 60 * second ≤ s'.now) :
    ∀ header context, (∀ token ∈ G.headerToken header, s'.Genuine G.auth token) →
      G.contextOf s'.now header = .ok (some context) →
      ¬ (context.tenantId = tenantId ∧ context.userId = userId ∧ context.role = role) := by
  have hstart : Outdated G (fun _ _ _ => True) (G.auth.accessEnd now₀) (.start mode now₀) := fun r hr => nomatch hr
  obtain ⟨hs, hexpires⟩ := (gateway G).run_stays (gateway_expires G) h ⟨.start G.auth mode now₀, hstart⟩
  let Q : String → String → String → Prop := fun t u r => t = tenantId ∧ u = userId ∧ r = role
  have hkeeps : (gateway G).Keeps (fun s _ => ¬ s.repo.HasActive tenantId userId role)
      fun s₁ => Sound G.auth s₁ ∧ Outdated G Q (G.auth.accessEnd s.now) s₁ := by
    refine fun hnone hstep hi => outdated_keeps G Q _ (fun t u r hactive hq => hnone ?_) hstep hi
    obtain ⟨rfl, rfl, rfl⟩ := hq
    exact hactive
  obtain ⟨hs', houtdated⟩ := (gateway G).run_inv hkeeps hnone h' ⟨hs, fun r hr _ => hexpires r hr trivial⟩
  exact fun header context hg hcontext => houtdated.not_accepted hs' hpast hg hcontext

end Expiry

/-- Tokens are their payloads, and "alice" and "bob" are the texts of two. -/
def acmeGateway : Gateway TokenPayload where
  auth := .plain
  passwords := plainPbkdf2
  text := asciiBuiltins
  tokenOf text :=
    if text = "alice" then (AuthService.plain.newTokens 0 "t1" { alice with role := "admin" } "s1").2.accessToken
    else (AuthService.plain.newTokens 0 "t2" { alice with userId := "u2", username := "bob" } "s2").2.accessToken
  bootstrapEnabled := true

/-- Alice is the first administrator, logs in, and creates Bob. -/
def acmeUsers : List (GatewayEvent TokenPayload) :=
  [.request ⟨"", .bootstrapAdmin
      { tenantId := some "acme", username := "alice", password := "sesame", password_long := by decide }⟩
      (plainDraw "u1" "x1"),
    .request ⟨"", .login ⟨"acme", "alice", "sesame", by decide⟩⟩ (plainDraw "s1" "t1"),
    .request ⟨"Bearer alice", .createUser { username := "bob", password := "sesame", password_long := by decide }⟩
      (plainDraw "u2" "x2")]

/-- A change that Alice makes. -/
def aliceChanges (userId : String) (role status : Option String) : ApiRequest TokenPayload :=
  ⟨"Bearer alice", .updateUser userId { role, status, password_long := by rintro _ ⟨⟩ }⟩

/-- Bob logs in, and Alice disables him. -/
def bobDisabled : List (GatewayEvent TokenPayload) :=
  [.request ⟨"", .login ⟨"acme", "bob", "sesame", by decide⟩⟩ (plainDraw "s2" "t2"),
    .request (aliceChanges "u2" none (some "disabled")) (plainDraw "x3" "x4")]

set_option maxRecDepth 8000 in
/-- `identity_expires` for Bob, who is disabled. -/
theorem identity_expires_bob :
    ∃ s s', (gateway acmeGateway).run (.start .database 0) (acmeUsers ++ bobDisabled) = some s ∧
      (gateway acmeGateway).run s [.tick 1800000000] = some s' ∧
      ∀ header context, (∀ token ∈ acmeGateway.headerToken header, s'.Genuine acmeGateway.auth token) →
        acmeGateway.contextOf s'.now header = .ok (some context) →
        ¬ (context.tenantId = "acme" ∧ context.userId = "u2" ∧ context.role = "employee") := by
  have hrun : ∃ s, (gateway acmeGateway).run (.start .database 0) (acmeUsers ++ bobDisabled) = some s ∧
      s.now = 0 ∧ ∀ user ∈ s.repo.users.values, user.status = "active" → user.userId ≠ "u2" :=
    ⟨_, rfl, rfl, by decide⟩
  obtain ⟨s, hs, hnow, hbob⟩ := hrun
  have hnone : ¬ s.repo.HasActive "acme" "u2" "employee" :=
    fun ⟨user, huser, hactive, _, hid, _⟩ => hbob user huser hactive hid
  have hlater : (gateway acmeGateway).run s [.tick 1800000000] = some { s with now := s.now + 1800000000 } := rfl
  have hpast : s.now + acmeGateway.auth.accessTtlMinutes * 60 * second ≤ s.now + 1800000000 := by
    rw [hnow]
    decide
  exact ⟨s, _, hs, hlater, identity_expires acmeGateway .database 0 hs hlater ⟨hnone, fun _ _ => trivial⟩ hpast⟩

end Ochestrate
