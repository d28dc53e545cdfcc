import Ochestrate.Api.RequestContext
import Ochestrate.Api.Users
import Ochestrate.Auth.Sessions
import Ochestrate.Framework.Interference
import Ochestrate.Storage.AuthTenants

/-!
# Tenants do not see each other

Users are stored under tenant and username, searched by user id and listed by
tenant; tokens are stored under ids that all tenants share. `Serves` says that
a program for a tenant needs the tenant's rows only and writes no others. It
holds of every request that draws new ids and presents a token of its own tenant
(`handle_serves`), so in the in-memory mode deleting the requests of the other
tenants changes neither what a tenant is answered nor its rows
(`tenants_isolated`).
-/

namespace Ochestrate

variable {τ : Type}

/-- The requests, with the caller's tenant where the request does not name it. -/
inductive TenantRequest (τ : Type)
  | createUser (auth : AuthContext) (payload : UserCreateRequest)
  | listUsers (auth : AuthContext)
  | updateUser (auth : AuthContext) (userId : String) (payload : UserUpdateRequest)
  | login (payload : LoginRequest)
  | refresh (tenantId : String) (payload : AuthApi.RefreshRequest τ)
  | logout (tenantId : String) (payload : AuthApi.RefreshRequest τ)

namespace TenantRequest

/-- The tenant of the caller. -/
def tenantId : TenantRequest τ → String
  | createUser auth _ | listUsers auth | updateUser auth _ _ => auth.tenantId
  | login payload => payload.tenantId
  | refresh tenantId _ | logout tenantId _ => tenantId

/-- The refresh token that a request presents. -/
def presented : TenantRequest τ → Option τ
  | refresh _ payload | logout _ payload => some payload.refreshToken
  | _ => none

end TenantRequest

/-- A request, the time, and what it draws. -/
structure TenantCall (τ : Type) where
  request : TenantRequest τ
  now : Time
  draw : Draw

inductive TenantAnswer (τ : Type)
  | user (response : UserResponse)
  | users (responses : List UserResponse)
  | tokens (response : LoginResponse τ)
  | done (body : Dict String Bool)

/-- The endpoint of a request. -/
def handle (A : AuthService τ) (P : Pbkdf2) (call : TenantCall τ) :
    EStateM HttpError AuthRepository (TenantAnswer τ) :=
  match call.request with
  | .createUser auth payload => do
    return .user (← UsersApi.createUser P call.now call.draw.serverNow call.draw.salt call.draw.first payload auth)
  | .listUsers auth => do return .users (← UsersApi.listUsers auth)
  | .updateUser auth userId payload => do
    return .user (← UsersApi.updateUser P call.draw.salt userId payload auth)
  | .login payload => do return .tokens (← AuthApi.login A P call.now call.draw.first call.draw.second payload)
  | .refresh _ payload => do return .tokens (← AuthApi.refresh A call.now call.draw.first payload)
  | .logout _ payload => do return .done (← AuthApi.logout A call.now payload)

/-- The service as its callers see it. -/
def tenantApi (A : AuthService τ) (P : Pbkdf2) :
    Responder AuthRepository (TenantCall τ) (Except HttpError (TenantAnswer τ)) :=
  ⟨fun repo call => outcome (handle A P call repo)⟩

/-- The ids that a call draws are new, and the token that it presents is not
another tenant's. -/
structure Proper (A : AuthService τ) (repo : AuthRepository) (call : TenantCall τ) : Prop where
  first : repo.getRefreshToken call.draw.first = none
  second : repo.getRefreshToken call.draw.second = none
  own : ∀ token ∈ call.request.presented, ∀ id ∈ A.tokenId token, ∀ row ∈ repo.getRefreshToken id,
    row.tenantId = call.request.tenantId

instance (A : AuthService τ) (repo : AuthRepository) (call : TenantCall τ) : Decidable (Proper A repo call) :=
  decidable_of_iff
    (repo.getRefreshToken call.draw.first = none ∧ repo.getRefreshToken call.draw.second = none ∧
      ∀ token ∈ call.request.presented, ∀ id ∈ A.tokenId token, ∀ row ∈ repo.getRefreshToken id,
        row.tenantId = call.request.tenantId)
    ⟨fun h => ⟨h.1, h.2.1, h.2.2⟩, fun h => ⟨h.first, h.second, h.own⟩⟩

/-! ## Programs for one tenant -/

/-- From `repo`, the program needs and writes rows of the tenant only. -/
structure Serves {ε α : Type} (tenantId : String) (x : EStateM ε AuthRepository α) (repo : AuthRepository) : Prop where
  confined : Confined (AuthRepository.ofTenant tenantId) x repo
  touches : Touches tenantId repo (finalState (x repo))

namespace Serves

variable {ε α β : Type} {tenantId : String} {repo : AuthRepository}

theorem pure (a : α) : Serves tenantId (Pure.pure a : EStateM ε AuthRepository α) repo := ⟨.pure a, .refl⟩

theorem throw (e : ε) : Serves tenantId (throw e : EStateM ε AuthRepository α) repo := ⟨.throw e, .refl⟩

theorem bind {x : EStateM ε AuthRepository α} {f : α → EStateM ε AuthRepository β} (h : Serves tenantId x repo)
    (hf : ∀ a repo', x repo = .ok a repo' → Serves tenantId (f a) repo') : Serves tenantId (x >>= f) repo := by
  refine ⟨h.confined.bind fun a repo' hx => (hf a repo' hx).confined, ?_⟩
  have htouches := h.touches
  cases hx : x repo with
  | error e repo' =>
    rw [hx] at htouches
    rw [bind_error hx]
    exact htouches
  | ok a repo' =>
    rw [hx] at htouches
    rw [bind_ok hx]
    exact htouches.trans (hf a repo' hx).touches

theorem ofExcept_bind {x : Except ε α} {f : α → EStateM ε AuthRepository β}
    (hf : ∀ a, x = .ok a → Serves tenantId (f a) repo) : Serves tenantId (MonadExcept.ofExcept x >>= f) repo := by
  cases x with
  | error e => exact .throw e
  | ok a => exact hf a rfl

/-- What is read is the same among the tenant's rows. -/
theorem get_bind {g : AuthRepository → EStateM ε AuthRepository β} (hg : g (repo.ofTenant tenantId) = g repo)
    (h : Serves tenantId (g repo) repo) : Serves tenantId (get >>= g) repo := by
  refine ⟨?_, h.touches⟩
  show g (repo.ofTenant tenantId) (repo.ofTenant tenantId) = within _ (g repo repo)
  rw [hg]
  exact h.confined

theorem answering {x : EStateM Exc AuthRepository α} (h : Serves tenantId x repo) (handler : Exc → HttpError) :
    Serves tenantId (answering handler x) repo := by
  refine ⟨?_, finalState_answering ▸ h.touches⟩
  have hconfined := h.confined
  unfold Confined Ochestrate.answering at *
  rw [hconfined]
  cases x repo <;> rfl

end Serves

section Programs

variable {A : AuthService τ} {P : Pbkdf2} {tenantId : String} {repo : AuthRepository}

theorem revoke_serves {id : TokenId} (hown : ∀ row, repo.getRefreshToken id = some row → row.tenantId = tenantId) :
    Serves tenantId (modify (·.revokeRefreshToken id) : EStateM Exc AuthRepository PUnit) repo :=
  ⟨congrArg (EStateM.Result.ok _) (repo.ofTenant_revoke tenantId hown).symm, Touches.refl.revoke hown⟩

theorem issueTokens_serves {now : Time} {id : TokenId} {user : UserRecord} {sessionId : String}
    (huser : user.tenantId = tenantId) (hnew : repo.getRefreshToken id = none) :
    Serves tenantId (A.issueTokens now id user sessionId) repo := by
  have hown : ∀ row', repo.getRefreshToken (A.newTokens now id user sessionId).1.tokenId = some row' →
      row'.tenantId = (A.newTokens now id user sessionId).1.tenantId := by
    intro row' hrow'
    cases hnew.symm.trans hrow'
  have hnew' : (repo.ofTenant tenantId).getRefreshToken id = none := by
    rw [repo.getRefreshToken_ofTenant, hnew, Option.filter_none]
  constructor
  · unfold Confined
    rw [A.issueTokens_of_none hnew, A.issueTokens_of_none hnew', within, repo.ofTenant_putToken huser hown]
  · rw [A.issueTokens_of_none hnew]
    exact .token .refl huser hown

theorem createUser_serves (hmode : repo.mode = .memory) (now serverNow : Time)
    (userId username passwordHash role status : String) :
    Serves tenantId (AuthRepository.createUser now serverNow userId tenantId username passwordHash role status) repo := by
  let record : UserRecord := ⟨tenantId, userId, username, role, status, passwordHash, now⟩
  have htenant : record.tenantId = tenantId := rfl
  have heq : ∀ repo : AuthRepository, repo.mode = .memory →
      AuthRepository.createUser now serverNow userId tenantId username passwordHash role status repo =
        .ok record (repo.putUser record) := by
    intro repo hmode
    simp only [AuthRepository.createUser, hmode]
    rfl
  constructor
  · unfold Confined
    rw [heq repo hmode, heq (repo.ofTenant tenantId) hmode, within, repo.ofTenant_putUser htenant]
  · rw [heq repo hmode]
    exact .user .refl htenant

theorem writeUser_serves (userId : String) (next : UserFields) :
    Serves tenantId (AuthRepository.writeUser tenantId userId next) repo := by
  unfold AuthRepository.writeUser
  constructor
  · unfold Confined
    dsimp only
    rw [repo.getUserById_ofTenant]
    cases huser : repo.getUserById tenantId userId with
    | none => rfl
    | some user =>
      have htenant : (user.withFields next).tenantId = tenantId := (AuthRepository.getUserById_some huser).2.1
      rw [within, repo.ofTenant_putUser htenant]
  · cases huser : repo.getUserById tenantId userId with
    | none => exact .refl
    | some user => exact .user .refl (AuthRepository.getUserById_some huser).2.1

theorem updateUser_serves (userId : String) (update : UserUpdate) :
    Serves tenantId (AuthRepository.updateUser tenantId userId update) repo := by
  unfold AuthRepository.updateUser
  refine .get_bind (by simp only [repo.getUserById_ofTenant]) ?_
  cases repo.getUserById tenantId userId with
  | none => exact .pure none
  | some current => exact writeUser_serves userId _

theorem login_serves {now : Time} {sessionId tokenId username password : String}
    (hnew : repo.getRefreshToken tokenId = none) :
    Serves tenantId (A.login P now sessionId tokenId tenantId username password) repo := by
  unfold AuthService.login
  refine .get_bind (by simp only [repo.getUserByUsername_ofTenant]) (.ofExcept_bind fun user huser => ?_)
  have hknown := (AuthService.checkLogin_ok huser).1
  exact issueTokens_serves (AuthRepository.getUserByUsername_some hknown).2.1 hnew

theorem refresh_serves {now : Time} {newId : TokenId} {token : τ} (hnew : repo.getRefreshToken newId = none)
    (hown : ∀ id, A.tokenId token = some id → ∀ row, repo.getRefreshToken id = some row → row.tenantId = tenantId) :
    Serves tenantId (A.refresh now newId token) repo := by
  unfold AuthService.refresh
  refine .ofExcept_bind fun id hid => ?_
  have hown := hown id (A.tokenId_of_presentedId hid)
  refine .get_bind (by simp only [repo.getRefreshToken_ofTenant_of_own tenantId hown]) (.ofExcept_bind fun row hrow => ?_)
  have htenant : row.tenantId = tenantId := hown row (A.checkToken_ok hrow).1
  rw [htenant]
  refine .get_bind (by simp only [repo.getUserById_ofTenant]) (.ofExcept_bind fun user huser => ?_)
  have hknown := (AuthService.checkUser_ok huser).1
  refine .bind (revoke_serves hown) fun _ repo' hrevoke => ?_
  obtain rfl : repo.revokeRefreshToken id = repo' := (EStateM.Result.ok.inj hrevoke).2
  exact issueTokens_serves (AuthRepository.getUserById_some hknown).2.1 (repo.getRefreshToken_revoke_none hnew id)

theorem logout_serves {now : Time} {token : τ}
    (hown : ∀ id, A.tokenId token = some id → ∀ row, repo.getRefreshToken id = some row → row.tenantId = tenantId) :
    Serves tenantId (A.logout now token) repo := by
  unfold AuthService.logout
  refine .ofExcept_bind fun payload hpayload => ?_
  dsimp only
  split
  · refine revoke_serves (hown _ ?_)
    rw [AuthService.tokenId, A.verify_of_decodeToken hpayload, Option.map_some]
  · exact .pure _

theorem ensureAdmin_serves (auth : AuthContext) : Serves tenantId (UsersApi.ensureAdmin auth) repo := by
  unfold UsersApi.ensureAdmin
  split
  · exact .throw _
  · exact .pure _

/-- A proper request serves its caller's tenant. -/
theorem handle_serves (P : Pbkdf2) (hmode : repo.mode = .memory) {call : TenantCall τ} (hc : Proper A repo call) :
    Serves call.request.tenantId (handle A P call) repo := by
  obtain ⟨request, now, draw⟩ := call
  obtain ⟨hfirst, hsecond, hown⟩ := hc
  unfold handle
  cases request with
  | createUser auth payload =>
    have hadmin : Serves auth.tenantId (UsersApi.ensureAdmin auth) repo := ensureAdmin_serves auth
    refine .bind (.bind hadmin fun _ repo' hpassed => ?_) fun _ _ _ => .pure _
    have hmode' : repo'.mode = .memory := by
      have htouches := hadmin.touches
      rw [hpassed] at htouches
      exact htouches.mode.trans hmode
    refine .bind (.answering (.ofExcept_bind fun passwordHash _ => ?_) _) fun _ _ _ => .pure _
    exact createUser_serves hmode' ..
  | listUsers auth =>
    refine .bind (.bind (ensureAdmin_serves auth) fun _ repo' _ => ?_) fun _ _ _ => .pure _
    exact .get_bind (by simp only [TenantRequest.tenantId, repo'.listUsers_ofTenant]) (.pure _)
  | updateUser auth userId payload =>
    refine .bind (.bind (ensureAdmin_serves auth) fun _ repo' _ => ?_) fun _ _ _ => .pure _
    refine .bind (.answering (.ofExcept_bind fun passwordHash _ => updateUser_serves userId _) _) fun user _ _ => ?_
    cases user with
    | none => exact .throw _
    | some user => exact .pure _
  | login payload =>
    exact .bind (.answering (login_serves hsecond) _) fun _ _ _ => .pure _
  | refresh tenantId payload =>
    exact .bind (.answering (refresh_serves hfirst fun id hid row hrow => hown _ rfl id hid row hrow) _)
      fun _ _ _ => .pure _
  | logout tenantId payload =>
    refine .bind (.bind (.answering (logout_serves fun id hid row hrow => hown _ rfl id hid row hrow) _) fun _ _ _ => ?_)
      fun _ _ _ => .pure _
    exact .pure _

end Programs

/-! ## Two runs -/

/-- The repositories have the same rows of the tenant, and `part` has tokens
only where `whole` has them, for the same tenants. -/
structure Alike (tenantId : String) (whole part : AuthRepository) : Prop where
  memory : whole.mode = .memory
  rows : part.ofTenant tenantId = whole.ofTenant tenantId
  tokens : ∀ id row, part.getRefreshToken id = some row →
    ∃ row', whole.getRefreshToken id = some row' ∧ row'.tenantId = row.tenantId

namespace Alike

variable {tenantId : String} {whole whole' part part' : AuthRepository}

theorem refl {repo : AuthRepository} (h : repo.mode = .memory) : Alike tenantId repo repo :=
  ⟨h, rfl, fun _ row hrow => ⟨row, hrow, rfl⟩⟩

theorem memory_part (h : Alike tenantId whole part) : part.mode = .memory := by
  have hmode : (part.ofTenant tenantId).mode = (whole.ofTenant tenantId).mode := by rw [h.rows]
  exact Eq.trans hmode h.memory

/-- What is proper over the whole run is proper over a part of it. -/
theorem proper (h : Alike tenantId whole part) {A : AuthService τ} {call : TenantCall τ} (hc : Proper A whole call) :
    Proper A part call := by
  have hnone : ∀ {id}, whole.getRefreshToken id = none → part.getRefreshToken id = none := by
    intro id hid
    refine Option.eq_none_iff_forall_ne_some.2 fun row hrow => ?_
    obtain ⟨row', hrow', -⟩ := h.tokens id row hrow
    cases hid.symm.trans hrow'
  refine ⟨hnone hc.first, hnone hc.second, fun token htoken id hid row hrow => ?_⟩
  obtain ⟨row', hrow', htenant⟩ := h.tokens id row hrow
  exact htenant.symm.trans (hc.own token htoken id hid row' hrow')

/-- A request of the tenant touches both. -/
theorem own (h : Alike tenantId whole part) (hwhole : Touches tenantId whole whole')
    (hpart : Touches tenantId part part') (hrows : part'.ofTenant tenantId = whole'.ofTenant tenantId) :
    Alike tenantId whole' part' := by
  refine ⟨hwhole.mode.trans h.memory, hrows, fun id row hrow => ?_⟩
  by_cases ht : row.tenantId = tenantId
  · have hfilter : (part'.ofTenant tenantId).getRefreshToken id = some row := by
      rw [part'.getRefreshToken_ofTenant, hrow, Option.filter_some, if_pos (decide_eq_true ht)]
    rw [hrows, whole'.getRefreshToken_ofTenant] at hfilter
    exact ⟨row, (Option.filter_eq_some_iff.1 hfilter).1, rfl⟩
  · -- it is no row of the tenant, and so was there before
    have hfilter : (part'.ofTenant row.tenantId).getRefreshToken id = some row := by
      rw [part'.getRefreshToken_ofTenant, hrow, Option.filter_some, if_pos (decide_eq_true rfl)]
    rw [hpart.ofTenant (Ne.symm ht), part.getRefreshToken_ofTenant] at hfilter
    obtain ⟨row', hrow', htenant⟩ := h.tokens id row (Option.filter_eq_some_iff.1 hfilter).1
    obtain ⟨row'', hrow'', htenant'⟩ := hwhole.kept hrow'
    exact ⟨row'', hrow'', htenant'.trans htenant⟩

/-- A request of another tenant touches the whole run only. -/
theorem other (h : Alike tenantId whole part) {other : String} (hne : other ≠ tenantId)
    (hwhole : Touches other whole whole') : Alike tenantId whole' part := by
  refine ⟨hwhole.mode.trans h.memory, h.rows.trans (hwhole.ofTenant hne).symm, fun id row hrow => ?_⟩
  obtain ⟨row', hrow', htenant⟩ := h.tokens id row hrow
  obtain ⟨row'', hrow'', htenant'⟩ := hwhole.kept hrow'
  exact ⟨row'', hrow'', htenant'.trans htenant⟩

end Alike

/-- The request is the tenant's. -/
def TenantCall.By (tenantId : String) (call : TenantCall τ) : Prop := call.request.tenantId = tenantId

instance (tenantId : String) : DecidablePred (TenantCall.By (τ := τ) tenantId) :=
  fun call => inferInstanceAs (Decidable (call.request.tenantId = tenantId))

theorem tenantApi_unwinds (A : AuthService τ) (P : Pbkdf2) (tenantId : String) :
    (tenantApi A P).Unwinding (TenantCall.By tenantId) (Proper A) (Alike tenantId) := by
  have hagree : ∀ {whole part call}, Alike tenantId whole part → Proper A whole call → TenantCall.By tenantId call →
      (outcome (handle A P call whole)).1 = (outcome (handle A P call part)).1 ∧
        Alike tenantId (outcome (handle A P call whole)).2 (outcome (handle A P call part)).2 := by
    intro whole part call h hc hby
    have hwhole := handle_serves P h.memory hc
    have hpart := handle_serves P h.memory_part (h.proper hc)
    rw [hby] at hwhole hpart
    obtain ⟨hanswer, hrows⟩ := hwhole.confined.agree hpart.confined h.rows.symm
    refine ⟨hanswer, h.own ?_ ?_ hrows.symm⟩
    · rw [outcome_snd]; exact hwhole.touches
    · rw [outcome_snd]; exact hpart.touches
  constructor
  · exact fun h hc hby => (hagree h hc hby).1
  · exact fun h hc hby => (hagree h hc hby).2
  · intro whole part call h hc hby
    have hwhole := (handle_serves P h.memory hc).touches
    rw [← outcome_snd] at hwhole
    exact h.other hby hwhole

/-- Deleting the requests of the other tenants changes neither the answers to a
tenant's requests nor its users and tokens. -/
theorem tenants_isolated (A : AuthService τ) (P : Pbkdf2) {repo : AuthRepository} (hmode : repo.mode = .memory)
    {calls : List (TenantCall τ)} (hm : (tenantApi A P).machine.Meets (Proper A) repo calls) (tenantId : String) :
    let own := calls.filter fun call => call.By tenantId
    (tenantApi A P).answers (TenantCall.By tenantId) repo own =
        (tenantApi A P).answers (TenantCall.By tenantId) repo calls ∧
      ((tenantApi A P).after repo own).ofTenant tenantId = ((tenantApi A P).after repo calls).ofTenant tenantId := by
  obtain ⟨hanswers, hafter⟩ := (tenantApi_unwinds A P tenantId).run hm (.refl hmode)
  exact ⟨hanswers, hafter.rows⟩

/-- An admin of the tenant. -/
def adminOf (tenantId : String) : AuthContext := { someCaller with tenantId, role := "admin" }

/-- Alice of "acme" and a user of "globex" are created and log in; she refreshes,
the other logs out, and the admin of "acme" lists the users. -/
def twoTenants : List (TenantCall TokenPayload) :=
  let token (user : UserRecord) (id : TokenId) := (AuthService.plain.newTokens 1 id user "s").2.refreshToken
  let stranger := { alice with tenantId := "globex", userId := "u2" }
  [⟨.createUser (adminOf "acme") { username := "alice", password := "secret", password_long := by decide }, 0,
      plainDraw "u1" "x1"⟩,
    ⟨.createUser (adminOf "globex") { username := "alice", password := "secret", password_long := by decide }, 0,
      plainDraw "u2" "x2"⟩,
    ⟨.login ⟨"acme", "alice", "secret", by decide⟩, 1, plainDraw "s" "t1"⟩,
    ⟨.login ⟨"globex", "alice", "secret", by decide⟩, 1, plainDraw "s" "t2"⟩,
    ⟨.refresh "acme" ⟨token alice "t1"⟩, 2, plainDraw "t3" "x3"⟩,
    ⟨.logout "globex" ⟨token stranger "t2"⟩, 2, plainDraw "x4" "x5"⟩,
    ⟨.listUsers (adminOf "acme"), 3, plainDraw "x6" "x7"⟩]

set_option maxRecDepth 8000 in
theorem twoTenants_proper :
    (tenantApi .plain plainPbkdf2).machine.Meets (Proper .plain) (.empty .memory) twoTenants := by decide +kernel

/-- `tenants_isolated` for "acme". -/
theorem acme_isolated :
    let own := twoTenants.filter fun call => call.By "acme"
    let api := tenantApi .plain plainPbkdf2
    own.length = 4 ∧
      api.answers (TenantCall.By "acme") (.empty .memory) own =
        api.answers (TenantCall.By "acme") (.empty .memory) twoTenants ∧
      (api.after (.empty .memory) own).ofTenant "acme" = (api.after (.empty .memory) twoTenants).ofTenant "acme" :=
  ⟨rfl, tenants_isolated .plain plainPbkdf2 rfl twoTenants_proper "acme"⟩

end Ochestrate
