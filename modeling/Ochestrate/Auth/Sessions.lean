import Ochestrate.Framework.Along
import Ochestrate.Framework.Machine
import Ochestrate.Auth.Service

/-!
# Sessions

Runs of the auth service: any sequence of its calls, with the cleanup of the
repository, while time passes. An `AuthRun` keeps two things that the service
does not: the ids that `uuid4` has drawn, which it draws only once, and the
responses issued, since a token that verifies is one of theirs (`Genuine`).

`Effect` says what a call can do to the tokens: it revokes or deletes some, or
it issues a pair for a user who is active. From it follow the invariant `Sound`
and that a token that is `Dead` stays dead.
-/

namespace Ochestrate

/-- The calls that a run is made of. -/
inductive AuthCall (τ : Type)
  | createUser (tenantId username password role status : String)
  | updateUser (tenantId userId : String) (role status password : Option String)
  | login (tenantId username password : String)
  | refresh (token : τ)
  | logout (token : τ)
  | cleanup

/-- What a call gets from outside: the ids that it draws, the salt and the
clock of the database server. -/
structure Draw where
  first : String
  second : String
  salt : Bytes
  serverNow : Time

inductive AuthEvent (τ : Type)
  | tick (d : Nat)
  | call (call : AuthCall τ) (draw : Draw)

inductive AuthAnswer (τ : Type)
  | user (record : UserRecord)
  | updated (record : Option UserRecord)
  | tokens (response : LoginResponse τ)
  | done

structure AuthRun (τ : Type) where
  now : Time
  repo : AuthRepository
  drawn : List String := []
  issued : List (LoginResponse τ) := []

variable {τ : Type}

/-- The token that a call presents. -/
def AuthCall.presented : AuthCall τ → Option τ
  | refresh token | logout token => some token
  | _ => none

/-- One call. -/
def AuthService.perform (A : AuthService τ) (P : Pbkdf2) (now : Time) (draw : Draw) :
    AuthCall τ → EStateM Exc AuthRepository (AuthAnswer τ)
  | .createUser tenantId username password role status => do
    return .user (← createUser P now draw.serverNow draw.salt draw.first tenantId username password role status)
  | .updateUser tenantId userId role status password => do
    return .updated (← updateUser P draw.salt tenantId userId role status password)
  | .login tenantId username password => do
    return .tokens (← A.login P now draw.first draw.second tenantId username password)
  | .refresh token => do return .tokens (← A.refresh now draw.first token)
  | .logout token => do
    A.logout now token
    return .done
  | .cleanup => do
    modify (AuthRepository.cleanupExpiredRefreshTokens now)
    return .done

/-- The response of a call that issues tokens. -/
def issuedBy : EStateM.Result Exc AuthRepository (AuthAnswer τ) → List (LoginResponse τ)
  | .ok (.tokens response) _ => [response]
  | _ => []

namespace AuthRun

/-- The service at its start. -/
def start (mode : RepoMode) (now : Time) : AuthRun τ where
  now := now
  repo := .empty mode

/-- `uuid4` draws new ids. -/
def Fresh (s : AuthRun τ) (draw : Draw) : Prop :=
  draw.first ∉ s.drawn ∧ draw.second ∉ s.drawn ∧ draw.first ≠ draw.second

/-- A token that verifies was issued. -/
def Genuine (A : AuthService τ) (s : AuthRun τ) (token : τ) : Prop :=
  A.jwt.verify token ≠ none → ∃ r ∈ s.issued, r.accessToken = token ∨ r.refreshToken = token

instance (s : AuthRun τ) (draw : Draw) : Decidable (s.Fresh draw) := inferInstanceAs (Decidable (_ ∧ _))

instance [DecidableEq τ] (A : AuthService τ) (s : AuthRun τ) (token : τ) : Decidable (s.Genuine A token) :=
  inferInstanceAs (Decidable (_ → _))

/-- The state after a call. -/
def after (s : AuthRun τ) (draw : Draw) (result : EStateM.Result Exc AuthRepository (AuthAnswer τ)) : AuthRun τ where
  now := s.now
  repo := finalState result
  drawn := draw.first :: draw.second :: s.drawn
  issued := s.issued ++ issuedBy result

end AuthRun

/-- The machine of the calls. -/
def sessions [DecidableEq τ] (A : AuthService τ) (P : Pbkdf2) : Machine (AuthRun τ) (AuthEvent τ) where
  step s
    | .tick d => some { s with now := s.now + d }
    | .call call draw =>
      if s.Fresh draw ∧ ∀ token ∈ call.presented, s.Genuine A token then
        some (s.after draw (A.perform P s.now draw call s.repo))
      else none

/-! ## What a call does to the tokens -/

/-- Tokens are deleted or revoked. -/
def Shrinks (repo repo' : AuthRepository) : Prop :=
  ∀ id row', repo'.getRefreshToken id = some row' →
    ∃ row, repo.getRefreshToken id = some row ∧ (row' = row ∨ row' = { row with revoked := true })

namespace Shrinks

variable {repo repo' repo'' : AuthRepository}

theorem of_eq (h : repo'.tokens = repo.tokens) : Shrinks repo repo' := fun _ row' h' =>
  ⟨row', by rw [AuthRepository.getRefreshToken, ← h]; exact h', .inl rfl⟩

theorem refl (repo : AuthRepository) : Shrinks repo repo := of_eq rfl

theorem trans (h : Shrinks repo repo') (h' : Shrinks repo' repo'') : Shrinks repo repo'' := by
  intro id row'' hrow''
  obtain ⟨row', hrow', h₁⟩ := h' id row'' hrow''
  obtain ⟨row, hrow, h₂⟩ := h id row' hrow'
  refine ⟨row, hrow, ?_⟩
  rcases h₁ with rfl | rfl
  · exact h₂
  · rcases h₂ with rfl | rfl <;> exact .inr rfl

theorem revoke (repo : AuthRepository) (id : TokenId) : Shrinks repo (repo.revokeRefreshToken id) := by
  intro id' row' h
  rw [AuthRepository.getRefreshToken_revoke] at h
  split at h
  · rename_i hid
    obtain ⟨row, hrow, rfl⟩ := Option.map_eq_some_iff.1 h
    exact ⟨row, hid ▸ hrow, .inr rfl⟩
  · exact ⟨row', h, .inl rfl⟩

theorem cleanup (now : Time) (repo : AuthRepository) :
    Shrinks repo (AuthRepository.cleanupExpiredRefreshTokens now repo) := by
  intro id row' h
  rw [AuthRepository.getRefreshToken_cleanup] at h
  exact ⟨row', (Option.filter_eq_some_iff.1 h).1, .inl rfl⟩

variable {α β : Type} {Q : α → Prop} {Q' : β → Prop} {x : EStateM Exc AuthRepository α}

theorem bind (h : Along Shrinks x Q) {f : α → EStateM Exc AuthRepository β}
    (hf : ∀ a, Q a → Along Shrinks (f a) Q') : Along Shrinks (x >>= f) Q' :=
  Along.bind (fun _ _ _ h h' => h.trans h') h hf

end Shrinks

theorem createUser_shrinks (now serverNow : Time) (userId tenantId username passwordHash role status : String) :
    Along Shrinks (AuthRepository.createUser now serverNow userId tenantId username passwordHash role status)
      (fun _ => True) := by
  intro repo
  rcases repo.createUser_cases now serverNow userId tenantId username passwordHash role status with
    ⟨exc, hcreate⟩ | ⟨createdAt, hcreate⟩
  · rw [hcreate]
    exact .refl repo
  · rw [hcreate]
    exact ⟨.of_eq rfl, trivial⟩

theorem updateUser_shrinks (tenantId userId : String) (update : UserUpdate) :
    Along Shrinks (AuthRepository.updateUser tenantId userId update) (fun _ => True) := by
  intro repo
  rcases repo.updateUser_cases tenantId userId update with hupdate | ⟨user, -, hupdate⟩
  · rw [hupdate]
    exact ⟨.refl repo, trivial⟩
  · rw [hupdate]
    exact ⟨.of_eq rfl, trivial⟩

theorem logout_shrinks (A : AuthService τ) (now : Time) (token : τ) :
    Along Shrinks (A.logout now token) (fun _ => True) := by
  unfold AuthService.logout
  refine Shrinks.bind (Along.ofExcept .refl _) fun payload _ => ?_
  dsimp only
  split
  · exact Along.modify fun repo => .revoke repo _
  · exact Along.pure .refl trivial

/-- A call issues no tokens, or it issues a pair: a login under new ids, a
refresh in the session of the token it revokes. -/
inductive Effect (A : AuthService τ) (s : AuthRun τ) (draw : Draw) :
    AuthCall τ → AuthRepository → List (LoginResponse τ) → Prop
  | quiet {call : AuthCall τ} {repo' : AuthRepository} (h : Shrinks s.repo repo') : Effect A s draw call repo' []
  | login {tenantId username password : String} {user : UserRecord}
      (huser : s.repo.getUserByUsername tenantId username = some user) (hactive : user.status = "active") :
      Effect A s draw (.login tenantId username password)
        (s.repo.putToken (A.newTokens s.now draw.second user draw.first).1)
        [(A.newTokens s.now draw.second user draw.first).2]
  | refresh {token : τ} {id : TokenId} {row : RefreshToken} {user : UserRecord}
      (hid : A.presentedId s.now token = .ok id) (hrow : s.repo.getRefreshToken id = some row)
      (hlive : row.revoked = false) (huser : s.repo.getUserById row.tenantId row.userId = some user)
      (hactive : user.status = "active") :
      Effect A s draw (.refresh token)
        ((s.repo.revokeRefreshToken id).putToken (A.newTokens s.now draw.first user row.sessionId).1)
        [(A.newTokens s.now draw.first user row.sessionId).2]

/-- A call that presents no refresh token and checks no password. -/
theorem effect_of_along {A : AuthService τ} {s : AuthRun τ} {draw : Draw} {call : AuthCall τ} {α : Type}
    {x : EStateM Exc AuthRepository α} (h : Along Shrinks x (fun _ => True)) {answer : α → AuthAnswer τ}
    (hanswer : ∀ a repo, issuedBy (.ok (answer a) repo) = []) :
    Effect A s draw call (finalState ((do return answer (← x)) s.repo)) (issuedBy ((do return answer (← x)) s.repo)) := by
  have hs := h s.repo
  cases hx : x s.repo with
  | ok a repo' =>
    rw [hx] at hs
    rw [bind_ok hx]
    have hquiet : issuedBy ((pure (answer a) : EStateM Exc AuthRepository (AuthAnswer τ)) repo') = [] := hanswer a repo'
    rw [hquiet]
    exact .quiet hs.1
  | error exc repo' =>
    rw [hx] at hs
    rw [bind_error hx]
    exact .quiet hs

theorem perform_effect (A : AuthService τ) (P : Pbkdf2) {s : AuthRun τ} {draw : Draw}
    (hfirst : s.repo.getRefreshToken draw.first = none) (hsecond : s.repo.getRefreshToken draw.second = none)
    (call : AuthCall τ) :
    Effect A s draw call (finalState (A.perform P s.now draw call s.repo))
      (issuedBy (A.perform P s.now draw call s.repo)) := by
  cases call with
  | createUser tenantId username password role status =>
    refine effect_of_along ?_ fun _ _ => rfl
    exact Shrinks.bind (Along.ofExcept .refl _) fun passwordHash _ => createUser_shrinks _ _ _ _ _ _ _ _
  | updateUser tenantId userId role status password =>
    refine effect_of_along ?_ fun _ _ => rfl
    exact Shrinks.bind (Along.ofExcept .refl _) fun passwordHash _ => updateUser_shrinks _ _ _
  | login tenantId username password =>
    have hlogin := A.login_eq P s.now draw.first draw.second tenantId username password s.repo
    rw [AuthService.perform]
    cases hcheck : AuthService.checkLogin P password (s.repo.getUserByUsername tenantId username) with
    | error exc =>
      rw [hcheck] at hlogin
      rw [bind_error hlogin]
      exact .quiet (.refl _)
    | ok user =>
      obtain ⟨huser, hactive⟩ := AuthService.checkLogin_ok hcheck
      rw [hcheck] at hlogin
      dsimp only at hlogin
      rw [A.issueTokens_of_none hsecond] at hlogin
      rw [bind_ok hlogin]
      exact .login huser hactive
  | refresh token =>
    have hrefresh := A.refresh_eq s.now draw.first token s.repo
    rw [AuthService.perform]
    cases hid : A.presentedId s.now token with
    | error exc =>
      rw [hid] at hrefresh
      rw [bind_error hrefresh]
      exact .quiet (.refl _)
    | ok id =>
      cases hrow : A.checkToken s.now token (s.repo.getRefreshToken id) with
      | error exc =>
        simp only [hid, hrow] at hrefresh
        rw [bind_error hrefresh]
        exact .quiet (.refl _)
      | ok row =>
        cases huser : AuthService.checkUser (s.repo.getUserById row.tenantId row.userId) with
        | error exc =>
          simp only [hid, hrow, huser] at hrefresh
          rw [bind_error hrefresh]
          exact .quiet (.refl _)
        | ok user =>
          have hnone := s.repo.getRefreshToken_revoke_none hfirst id
          obtain ⟨hstored, hlive⟩ := A.checkToken_ok hrow
          obtain ⟨hknown, hactive⟩ := AuthService.checkUser_ok huser
          simp only [hid, hrow, huser, A.issueTokens_of_none hnone] at hrefresh
          rw [bind_ok hrefresh]
          exact .refresh hid hstored hlive hknown hactive
  | logout token =>
    exact effect_of_along (logout_shrinks A s.now token) fun _ _ => rfl
  | cleanup =>
    exact effect_of_along (Along.modify fun repo => .cleanup s.now repo) fun _ _ => rfl

/-! ## The invariant -/

/-- The response and the row are of one call of `_issue_tokens`. -/
def Issued (A : AuthService τ) (id : TokenId) (r : LoginResponse τ) (row : RefreshToken) : Prop :=
  ∃ now user sessionId, A.newTokens now id user sessionId = (row, r)

namespace Issued

variable {A : AuthService τ} {id id' : TokenId} {r : LoginResponse τ} {row row' : RefreshToken}

theorem access (h : Issued A id r row) : ∃ exp, A.jwt.verify r.accessToken = some {
    typ := "access", tenantId := r.tenantId, userId := r.userId, role := some r.role, sessionId := r.sessionId, exp } := by
  obtain ⟨now, user, sessionId, h⟩ := h
  obtain ⟨-, rfl⟩ := Prod.mk.inj h
  exact ⟨_, A.jwt.verify_encode _⟩

theorem refresh (h : Issued A id r row) : ∃ exp, A.jwt.verify r.refreshToken = some {
    typ := "refresh", jti := some id, tenantId := r.tenantId, userId := r.userId, sessionId := r.sessionId, exp } := by
  obtain ⟨now, user, sessionId, h⟩ := h
  obtain ⟨-, rfl⟩ := Prod.mk.inj h
  exact ⟨_, A.jwt.verify_encode _⟩

theorem row_eq (h : Issued A id r row) :
    row.tenantId = r.tenantId ∧ row.userId = r.userId ∧ row.sessionId = r.sessionId ∧ row.tokenId = id := by
  obtain ⟨now, user, sessionId, h⟩ := h
  obtain ⟨rfl, rfl⟩ := Prod.mk.inj h
  exact ⟨rfl, rfl, rfl, rfl⟩

theorem id_eq (h : Issued A id r row) (h' : Issued A id' r row') : id = id' := by
  obtain ⟨exp, hr⟩ := h.refresh
  obtain ⟨exp', hr'⟩ := h'.refresh
  rw [hr, Option.some.injEq, TokenPayload.mk.injEq] at hr'
  exact Option.some.inj hr'.2.1

end Issued

/-- Everything stored was issued, under an id of its own; the tokens of a
session belong to one user, and one of them at most is not revoked. -/
structure Sound (A : AuthService τ) (s : AuthRun τ) : Prop where
  drawn : ∀ r ∈ s.issued, r.sessionId ∈ s.drawn ∧ ∃ id row, id ∈ s.drawn ∧ Issued A id r row
  ids : ∀ r ∈ s.issued, ∀ r' ∈ s.issued, ∀ id row row', Issued A id r row → Issued A id r' row' → r = r'
  owner : ∀ r ∈ s.issued, ∀ r' ∈ s.issued, r.sessionId = r'.sessionId →
    r.tenantId = r'.tenantId ∧ r.userId = r'.userId
  stored : ∀ id row, s.repo.getRefreshToken id = some row →
    ∃ r ∈ s.issued, Issued A id r { row with revoked := false }
  live : ∀ id id' row row', s.repo.getRefreshToken id = some row → s.repo.getRefreshToken id' = some row' →
    row.sessionId = row'.sessionId → row.revoked = false → row'.revoked = false → id = id'

namespace Sound

variable {A : AuthService τ} {s s' : AuthRun τ}

theorem start (A : AuthService τ) (mode : RepoMode) (now : Time) : Sound A (.start mode now) where
  drawn r h := by cases h
  ids r h := by cases h
  owner r h := by cases h
  stored id row h := by cases h
  live id id' row row' h := by cases h

/-- A stored token's id was drawn. -/
theorem id_drawn (hs : Sound A s) {id : TokenId} {row : RefreshToken} (h : s.repo.getRefreshToken id = some row) :
    id ∈ s.drawn := by
  obtain ⟨r, hr, hissued⟩ := hs.stored id row h
  obtain ⟨-, id', row', hid', hissued'⟩ := hs.drawn r hr
  exact hissued.id_eq hissued' ▸ hid'

theorem not_stored (hs : Sound A s) {id : TokenId} (h : id ∉ s.drawn) : s.repo.getRefreshToken id = none :=
  Option.eq_none_iff_forall_ne_some.2 fun _ hrow => h (hs.id_drawn hrow)

/-- Nothing is issued. -/
theorem shrink (hs : Sound A s) (hrepo : Shrinks s.repo s'.repo) (hissued : s'.issued = s.issued)
    (hdrawn : s.drawn ⊆ s'.drawn) : Sound A s' where
  drawn r hr := by
    obtain ⟨hsession, id, row, hid, h⟩ := hs.drawn r (hissued ▸ hr)
    exact ⟨hdrawn hsession, id, row, hdrawn hid, h⟩
  ids := hissued ▸ hs.ids
  owner := hissued ▸ hs.owner
  stored id row' h := by
    obtain ⟨row, hrow, heq⟩ := hrepo id row' h
    obtain ⟨r, hr, hissuedBy⟩ := hs.stored id row hrow
    refine ⟨r, hissued ▸ hr, ?_⟩
    rcases heq with rfl | rfl <;> exact hissuedBy
  live id id' row₁ row₂ h₁ h₂ hsession hlive₁ hlive₂ := by
    obtain ⟨row, hrow, heq⟩ := hrepo id row₁ h₁
    obtain ⟨row', hrow', heq'⟩ := hrepo id' row₂ h₂
    rcases heq with rfl | rfl
    · rcases heq' with rfl | rfl
      · exact hs.live id id' _ _ hrow hrow' hsession hlive₁ hlive₂
      · cases hlive₂
    · cases hlive₁

/-- A pair is issued under a new id, in a session that is its user's and has no
live token. -/
theorem issue (hs : Sound A s) {repo' : AuthRepository} (hrepo : Shrinks s.repo repo') {id : TokenId}
    {user : UserRecord} {sessionId : String} (hid : id ∉ s.drawn)
    (howner : ∀ r ∈ s.issued, r.sessionId = sessionId → r.tenantId = user.tenantId ∧ r.userId = user.userId)
    (hlive : ∀ id' row, repo'.getRefreshToken id' = some row → row.sessionId = sessionId → row.revoked = true)
    (hs' : s'.repo = repo'.putToken (A.newTokens s.now id user sessionId).1)
    (hissued : s'.issued = s.issued ++ [(A.newTokens s.now id user sessionId).2])
    (hdrawn : ∀ x, x ∈ s.drawn ∨ x = id ∨ x = sessionId → x ∈ s'.drawn) : Sound A s' := by
  let row := (A.newTokens s.now id user sessionId).1
  let r := (A.newTokens s.now id user sessionId).2
  have hnew : Issued A id r row := ⟨s.now, user, sessionId, rfl⟩
  have hget : ∀ id', s'.repo.getRefreshToken id' = if id' = id then some row else repo'.getRefreshToken id' := by
    intro id'
    rw [hs', AuthRepository.getRefreshToken_putToken]
    rfl
  have hmem : ∀ r', r' ∈ s'.issued ↔ r' ∈ s.issued ∨ r' = r := by
    intro r'
    rw [hissued, List.mem_append, List.mem_singleton]
  have hold : Sound A { s with repo := repo' } := hs.shrink hrepo rfl (List.Subset.refl _)
  -- nothing was issued under the id before
  have hfresh : ∀ r' ∈ s.issued, ∀ row', ¬ Issued A id r' row' := by
    intro r' hr' row' h
    obtain ⟨-, id', row'', hid', h'⟩ := hs.drawn r' hr'
    exact hid (h.id_eq h' ▸ hid')
  refine ⟨fun r' hr' => ?_, fun r₁ h₁ r₂ h₂ id' row₁ row₂ hi₁ hi₂ => ?_, fun r₁ h₁ r₂ h₂ hsession => ?_,
    fun id' row' h => ?_, fun id₁ id₂ row₁ row₂ h₁ h₂ hsession hl₁ hl₂ => ?_⟩
  · rcases (hmem r').1 hr' with hr' | rfl
    · obtain ⟨hsession, id', row', hid', h⟩ := hs.drawn r' hr'
      exact ⟨hdrawn _ (.inl hsession), id', row', hdrawn _ (.inl hid'), h⟩
    · exact ⟨hdrawn _ (.inr (.inr rfl)), id, row, hdrawn _ (.inr (.inl rfl)), hnew⟩
  · rcases (hmem r₁).1 h₁ with h₁ | rfl <;> rcases (hmem r₂).1 h₂ with h₂ | rfl
    · exact hs.ids r₁ h₁ r₂ h₂ id' row₁ row₂ hi₁ hi₂
    · exact absurd (hnew.id_eq hi₂ ▸ hi₁) (hfresh r₁ h₁ row₁)
    · exact absurd (hnew.id_eq hi₁ ▸ hi₂) (hfresh r₂ h₂ row₂)
    · rfl
  · rcases (hmem r₁).1 h₁ with h₁ | rfl <;> rcases (hmem r₂).1 h₂ with h₂ | rfl
    · exact hs.owner r₁ h₁ r₂ h₂ hsession
    · exact howner r₁ h₁ hsession
    · obtain ⟨ht, hu⟩ := howner r₂ h₂ hsession.symm
      exact ⟨ht.symm, hu.symm⟩
    · exact ⟨rfl, rfl⟩
  · rw [hget] at h
    split at h
    · rename_i hid'
      rw [← Option.some.inj h, hid']
      exact ⟨r, (hmem r).2 (.inr rfl), hnew⟩
    · obtain ⟨r', hr', h'⟩ := hold.stored id' row' h
      exact ⟨r', (hmem r').2 (.inl hr'), h'⟩
  · rw [hget] at h₁ h₂
    split at h₁ <;> split at h₂
    · rename_i hid₁ hid₂; rw [hid₁, hid₂]
    · rw [← Option.some.inj h₁] at hsession
      rw [hlive id₂ row₂ h₂ hsession.symm] at hl₂
      cases hl₂
    · rw [← Option.some.inj h₂] at hsession
      rw [hlive id₁ row₁ h₁ hsession] at hl₁
      cases hl₁
    · exact hold.live id₁ id₂ row₁ row₂ h₁ h₂ hsession hl₁ hl₂

theorem effect (hs : Sound A s) {draw : Draw} (hfresh : s.Fresh draw) {call : AuthCall τ} {repo' : AuthRepository}
    {issued : List (LoginResponse τ)} (h : Effect A s draw call repo' issued) :
    Sound A ⟨s.now, repo', draw.first :: draw.second :: s.drawn, s.issued ++ issued⟩ := by
  obtain ⟨hfirst, hsecond, hne⟩ := hfresh
  cases h with
  | quiet h =>
    exact hs.shrink h (List.append_nil _) fun x hx => List.mem_cons_of_mem _ (List.mem_cons_of_mem _ hx)
  | @login tenantId username password user huser hactive =>
    refine hs.issue (.refl _) hsecond (fun r hr hsession => ?_) (fun id row hrow hsession => ?_) rfl rfl ?_
    · exact absurd (hsession ▸ (hs.drawn r hr).1) hfirst
    · -- a token of the session would be one that was issued
      obtain ⟨r, hr, h⟩ := hs.stored id row hrow
      have hr' : r.sessionId = draw.first := h.row_eq.2.2.1.symm.trans hsession
      exact absurd (hr' ▸ (hs.drawn r hr).1) hfirst
    · rintro x (hx | rfl | rfl) <;> simp [*]
  | @refresh token id row user hid hrow hlive huser hactive =>
    obtain ⟨r₀, hr₀, h₀⟩ := hs.stored id row hrow
    obtain ⟨htenant, huserId, hsession₀, -⟩ := h₀.row_eq
    obtain ⟨-, ht, hu⟩ := AuthRepository.getUserById_some huser
    refine hs.issue (.revoke _ id) hfirst (fun r hr hsession => ?_) (fun id' row' hrow' hsession => ?_) rfl rfl ?_
    · obtain ⟨h₁, h₂⟩ := hs.owner r hr r₀ hr₀ (hsession.trans hsession₀)
      rw [h₁, h₂, ht, hu]
      exact ⟨htenant.symm, huserId.symm⟩
    · rw [AuthRepository.getRefreshToken_revoke] at hrow'
      split at hrow'
      · obtain ⟨row₁, -, rfl⟩ := Option.map_eq_some_iff.1 hrow'
        rfl
      · rename_i hne'
        cases hrevoked : row'.revoked with
        | true => rfl
        | false => exact absurd (hs.live id' id row' row hrow' hrow hsession hrevoked hlive) hne'
    · rintro x (hx | rfl | rfl)
      · exact List.mem_cons_of_mem _ (List.mem_cons_of_mem _ hx)
      · exact List.mem_cons_self ..
      · exact List.mem_cons_of_mem _ (List.mem_cons_of_mem _ (hsession₀ ▸ (hs.drawn r₀ hr₀).1))

end Sound

/-- What a step of a run does: time passes, or a call has its effect. -/
theorem step_effect [DecidableEq τ] {A : AuthService τ} {P : Pbkdf2} {s s' : AuthRun τ} {e : AuthEvent τ}
    (hs : Sound A s) (h : (sessions A P).step s e = some s') :
    (∃ d, e = .tick d ∧ s' = { s with now := s.now + d }) ∨
    ∃ call draw, e = .call call draw ∧ s.Fresh draw ∧ (∀ token ∈ call.presented, s.Genuine A token) ∧
      s' = s.after draw (A.perform P s.now draw call s.repo) ∧
      Effect A s draw call s'.repo (issuedBy (A.perform P s.now draw call s.repo)) := by
  cases e with
  | tick d => exact .inl ⟨d, rfl, (Option.some.inj h).symm⟩
  | call call draw =>
    obtain ⟨⟨hfresh, hgenuine⟩, h⟩ := Option.ite_none_right_eq_some.1 h
    obtain rfl := Option.some.inj h
    exact .inr ⟨call, draw, rfl, hfresh, hgenuine, rfl,
      perform_effect A P (hs.not_stored hfresh.1) (hs.not_stored hfresh.2.1) call⟩

theorem sound_keeps [DecidableEq τ] (A : AuthService τ) (P : Pbkdf2) :
    (sessions A P).Keeps (fun _ _ => True) (Sound A) := by
  intro s e s' _ h hs
  rcases step_effect hs h with ⟨d, rfl, rfl⟩ | ⟨call, draw, rfl, hfresh, -, rfl, heffect⟩
  · exact hs.shrink (.refl _) rfl (List.Subset.refl _)
  · exact hs.effect hfresh heffect

/-! ## Tokens that are no longer valid -/

/-- The token does not pass the checks that come before the repository's, or its
row is revoked or deleted. -/
def Dead (A : AuthService τ) (s : AuthRun τ) (token : τ) : Prop :=
  (∀ now, s.now ≤ now → ∃ exc, A.presentedId now token = .error exc) ∨
  ∃ id ∈ s.drawn, A.tokenId token = some id ∧
    ∀ row, s.repo.getRefreshToken id = some row → row.revoked = true

section Dead

variable {A : AuthService τ} {s s' : AuthRun τ} {token : τ}

/-- `refresh` rejects the token, and changes nothing. -/
theorem Dead.rejected (hd : Dead A s token) (newId : TokenId) :
    ∃ exc, A.refresh s.now newId token s.repo = .error exc s.repo := by
  rw [A.refresh_eq]
  cases hid : A.presentedId s.now token with
  | error exc => exact ⟨exc, rfl⟩
  | ok id =>
    rcases hd with hd | ⟨id', -, htoken, hrevoked⟩
    · obtain ⟨exc, hexc⟩ := hd s.now (Int.le_refl _)
      rw [hid] at hexc
      cases hexc
    · have hid' : id' = id := Option.some.inj (htoken.symm.trans (A.tokenId_of_presentedId hid))
      subst hid'
      cases hrow : A.checkToken s.now token (s.repo.getRefreshToken id') with
      | error exc => exact ⟨exc, by simp only [hrow]⟩
      | ok row =>
        obtain ⟨hstored, hlive⟩ := A.checkToken_ok hrow
        rw [hrevoked row hstored] at hlive
        cases hlive

/-- What was revoked or deleted is not stored again. -/
theorem Dead.effect (hd : Dead A s token) {draw : Draw} (hfresh : s.Fresh draw) {call : AuthCall τ}
    {issued : List (LoginResponse τ)} (h : Effect A s draw call s'.repo issued) (hnow : s.now ≤ s'.now)
    (hdrawn : s.drawn ⊆ s'.drawn) : Dead A s' token := by
  rcases hd with hd | ⟨id, hid, htoken, hrevoked⟩
  · exact .inl fun now hle => hd now (Int.le_trans hnow hle)
  have hshrinks : ∀ {repo'}, Shrinks s.repo repo' →
      ∀ row, repo'.getRefreshToken id = some row → row.revoked = true := by
    intro repo' hrepo row' hrow'
    obtain ⟨row, hrow, rfl | rfl⟩ := hrepo id row' hrow'
    · exact hrevoked _ hrow
    · rfl
  refine .inr ⟨id, hdrawn hid, htoken, fun row' hrow' => ?_⟩
  generalize s'.repo = repo' at h hrow'
  cases h with
  | quiet h => exact hshrinks h row' hrow'
  | login huser hactive =>
    rw [AuthRepository.getRefreshToken_putToken] at hrow'
    split at hrow'
    · rename_i hnew
      have hid' : id = draw.second := hnew
      exact absurd (hid' ▸ hid) hfresh.2.1
    · exact hrevoked row' hrow'
  | refresh hpresented hrow hlive huser hactive =>
    rw [AuthRepository.getRefreshToken_putToken] at hrow'
    split at hrow'
    · rename_i hnew
      have hid' : id = draw.first := hnew
      exact absurd (hid' ▸ hid) hfresh.1
    · exact hshrinks (.revoke _ _) row' hrow'

theorem dead_keeps [DecidableEq τ] (A : AuthService τ) (P : Pbkdf2) (token : τ) :
    (sessions A P).Keeps (fun _ _ => True) fun s => Sound A s ∧ Dead A s token := by
  rintro s e s' _ h ⟨hs, hd⟩
  refine ⟨sound_keeps A P trivial h hs, ?_⟩
  rcases step_effect hs h with ⟨d, rfl, rfl⟩ | ⟨call, draw, rfl, hfresh, -, rfl, heffect⟩
  · rcases hd with hd | hd
    · exact .inl fun now hle => hd now (Int.le_trans (Int.le_add_of_nonneg_right (Int.natCast_nonneg d)) hle)
    · exact .inr hd
  · exact hd.effect hfresh heffect (Int.le_refl _)
      fun x hx => List.mem_cons_of_mem _ (List.mem_cons_of_mem _ hx)

/-- What a genuine token that verifies says. -/
theorem Sound.genuine (hs : Sound A s) (hg : s.Genuine A token) {payload : TokenPayload}
    (h : A.jwt.verify token = some payload) :
    ∃ r ∈ s.issued, ∃ id ∈ s.drawn, ∃ row, Issued A id r row ∧
      ((r.accessToken = token ∧ payload.typ = "access" ∧ payload.jti = none) ∨
        (r.refreshToken = token ∧ payload.typ = "refresh" ∧ payload.jti = some id ∧ payload.tenantId = r.tenantId ∧
          payload.userId = r.userId ∧ payload.sessionId = r.sessionId)) := by
  obtain ⟨r, hr, htoken⟩ := hg (by rw [h]; exact Option.some_ne_none _)
  obtain ⟨-, id, row, hid, hissued⟩ := hs.drawn r hr
  refine ⟨r, hr, id, hid, row, hissued, ?_⟩
  rcases htoken with rfl | rfl
  · obtain ⟨exp, haccess⟩ := hissued.access
    obtain rfl := Option.some.inj (h.symm.trans haccess)
    exact .inl ⟨rfl, rfl, rfl⟩
  · obtain ⟨exp, hrefresh⟩ := hissued.refresh
    obtain rfl := Option.some.inj (h.symm.trans hrefresh)
    exact .inr ⟨rfl, rfl, rfl, rfl, rfl, rfl⟩

/-- After a logout the token is dead, whether the logout returned or raised. -/
theorem logout_dead [DecidableEq τ] {P : Pbkdf2} (hs : Sound A s) {draw : Draw}
    (h : (sessions A P).step s (.call (.logout token) draw) = some s') : Dead A s' token := by
  obtain ⟨⟨hfresh, hgenuine⟩, h⟩ := Option.ite_none_right_eq_some.1 h
  obtain rfl := Option.some.inj h
  have hrepo : finalState (A.perform P s.now draw (.logout token) s.repo) = finalState (A.logout s.now token s.repo) := by
    rw [AuthService.perform]
    cases hlogout : A.logout s.now token s.repo with
    | ok u repo' => rw [bind_ok hlogout]; rfl
    | error exc repo' => rw [bind_error hlogout]; rfl
  unfold AuthRun.after Dead
  rw [hrepo, A.logout_eq]
  cases hdecode : A.decodeToken s.now token with
  | error exc =>
    -- forged, or expired and so for ever
    refine .inl fun now hle => ⟨exc, ?_⟩
    rw [AuthService.presentedId, A.decodeToken_error_later hle hdecode]
  | ok payload =>
    have hverify := A.verify_of_decodeToken hdecode
    by_cases hjti : payload.jti.getD "" = ""
    · refine .inl fun now hle => ?_
      cases hid : A.presentedId now token with
      | error exc => exact ⟨exc, rfl⟩
      | ok id =>
        obtain ⟨payload', hverify', -, hjti', hne⟩ := A.verify_of_presentedId hid
        obtain rfl := Option.some.inj (hverify.symm.trans hverify')
        exact absurd (hjti'.symm.trans hjti) hne
    · simp only [hjti, ↓reduceIte]
      obtain ⟨r, hr, id, hid, row, hissued, ⟨-, -, hnone⟩ | ⟨-, -, hsome, -⟩⟩ :=
        hs.genuine (hgenuine token rfl) hverify
      · rw [hnone] at hjti; exact absurd rfl hjti
      · refine .inr ⟨id, List.mem_cons_of_mem _ (List.mem_cons_of_mem _ hid), ?_, fun row' hrow' => ?_⟩
        · rw [AuthService.tokenId, hverify, Option.map_some, hsome, Option.getD_some]
        · rw [hsome, Option.getD_some] at hrow'
          change (s.repo.revokeRefreshToken id).getRefreshToken id = some row' at hrow'
          rw [AuthRepository.getRefreshToken_revoke, if_pos rfl] at hrow'
          obtain ⟨row₀, -, rfl⟩ := Option.map_eq_some_iff.1 hrow'
          rfl

/-- After a refresh that returns the token is dead. -/
theorem refresh_dead [DecidableEq τ] {P : Pbkdf2} (hs : Sound A s) {draw : Draw}
    (h : (sessions A P).step s (.call (.refresh token) draw) = some s') {response : LoginResponse τ}
    {repo' : AuthRepository} (hok : A.refresh s.now draw.first token s.repo = .ok response repo') : Dead A s' token := by
  obtain ⟨⟨hfresh, -⟩, h⟩ := Option.ite_none_right_eq_some.1 h
  obtain rfl := Option.some.inj h
  obtain ⟨id, row, user, hid, hrow, -, -, rfl⟩ := A.refresh_ok hok
  have hdrawn : id ∈ s.drawn := hs.id_drawn (A.checkToken_ok hrow).1
  refine .inr ⟨id, List.mem_cons_of_mem _ (List.mem_cons_of_mem _ hdrawn), A.tokenId_of_presentedId hid, ?_⟩
  intro row' hrow'
  rw [AuthRun.after, AuthService.perform, bind_ok hok] at hrow'
  change (AuthRepository.putToken _ _).getRefreshToken id = some row' at hrow'
  rw [AuthRepository.getRefreshToken_putToken] at hrow'
  split at hrow'
  · rename_i hnew
    have hid' : id = draw.first := hnew
    exact absurd (hid' ▸ hdrawn) hfresh.1
  · rw [AuthRepository.getRefreshToken_revoke, if_pos rfl] at hrow'
    obtain ⟨row₀, -, rfl⟩ := Option.map_eq_some_iff.1 hrow'
    rfl

/-- The response is a pair in the session of the presented token, for its user
as the user is now. -/
def Renews (A : AuthService τ) (s : AuthRun τ) (token : τ) (response : LoginResponse τ) : Prop :=
  ∃ payload user newId, A.jwt.verify token = some payload ∧
    s.repo.getUserById payload.tenantId payload.userId = some user ∧
    response = (A.newTokens s.now newId user payload.sessionId).2 ∧
    response.tenantId = payload.tenantId ∧ response.userId = payload.userId ∧
    response.sessionId = payload.sessionId ∧ response.role = user.role

theorem refresh_renews (hs : Sound A s) (hg : s.Genuine A token) {newId : TokenId} {response : LoginResponse τ}
    {repo' : AuthRepository} (h : A.refresh s.now newId token s.repo = .ok response repo') :
    Renews A s token response := by
  obtain ⟨id, row, user, hid, hrow, huser, rfl, -⟩ := A.refresh_ok h
  obtain ⟨hstored, hlive⟩ := A.checkToken_ok hrow
  obtain ⟨hknown, -⟩ := AuthService.checkUser_ok huser
  obtain ⟨-, ht, hu⟩ := AuthRepository.getUserById_some hknown
  obtain ⟨payload, hverify, htyp, hjti, -⟩ := A.verify_of_presentedId hid
  -- the row and the token are of the same response
  obtain ⟨r₀, hr₀, h₀⟩ := hs.stored id row hstored
  obtain ⟨r, hr, id', -, row', h', ⟨-, haccess, -⟩ | ⟨-, -, hsome, htenant, huserId, hsession⟩⟩ := hs.genuine hg hverify
  · rw [htyp] at haccess
    exact absurd haccess (by decide)
  · rw [hsome, Option.getD_some] at hjti
    subst hjti
    obtain rfl := hs.ids r hr r₀ hr₀ id' _ _ h' h₀
    obtain ⟨h₁, h₂, h₃, -⟩ := h₀.row_eq
    have htenant' : row.tenantId = payload.tenantId := h₁.trans htenant.symm
    have huserId' : row.userId = payload.userId := h₂.trans huserId.symm
    have hsession' : row.sessionId = payload.sessionId := h₃.trans hsession.symm
    refine ⟨payload, user, newId, hverify, ?_, by rw [hsession'], ht.trans htenant', hu.trans huserId', hsession', rfl⟩
    rw [← htenant', ← huserId', hknown]

end Dead

/-! ## The laws of a session -/

/-- The event exchanges the token, or logs out with it. -/
def Spends (A : AuthService τ) (s : AuthRun τ) (token : τ) (e : AuthEvent τ) : Prop :=
  ∃ draw, e = .call (.logout token) draw ∨
    e = .call (.refresh token) draw ∧ ∃ response repo', A.refresh s.now draw.first token s.repo = .ok response repo'

/-- What holds of the sessions of `s`, which the events `es` reach from `s₀`. -/
structure SessionLaws [DecidableEq τ] (A : AuthService τ) (P : Pbkdf2) (s₀ : AuthRun τ) (es : List (AuthEvent τ))
    (s : AuthRun τ) : Prop where
  /-- One token of a session at most is not revoked. -/
  live : ∀ id id' row row', s.repo.getRefreshToken id = some row → s.repo.getRefreshToken id' = some row' →
    row.sessionId = row'.sessionId → row.revoked = false → row'.revoked = false → id = id'
  /-- The tokens of a session belong to one user. -/
  owner : ∀ id id' row row', s.repo.getRefreshToken id = some row → s.repo.getRefreshToken id' = some row' →
    row.sessionId = row'.sessionId → row.tenantId = row'.tenantId ∧ row.userId = row'.userId
  /-- A token that was exchanged or logged out is rejected. -/
  spent : ∀ es₁ e es₂ s₁ token, es = es₁ ++ e :: es₂ → (sessions A P).run s₀ es₁ = some s₁ → Spends A s₁ token e →
    ∀ newId, ∃ exc, A.refresh s.now newId token s.repo = .error exc s.repo
  /-- A refresh renews the session. -/
  renews : ∀ token newId response repo', s.Genuine A token →
    A.refresh s.now newId token s.repo = .ok response repo' → Renews A s token response

/-- They hold in every run of the service. -/
theorem session_laws [DecidableEq τ] (A : AuthService τ) (P : Pbkdf2) (mode : RepoMode) (now₀ : Time)
    {es : List (AuthEvent τ)} {s : AuthRun τ} (h : (sessions A P).run (.start mode now₀) es = some s) :
    SessionLaws A P (.start mode now₀) es s := by
  have hsound : ∀ {es s}, (sessions A P).run (.start mode now₀) es = some s → Sound A s :=
    fun h => (sessions A P).run_stays (sound_keeps A P) h (.start A mode now₀)
  have hs : Sound A s := hsound h
  refine ⟨hs.live, fun id id' row row' hrow hrow' hsession => ?_, fun es₁ e es₂ s₁ token hes h₁ hspends => ?_,
    fun token newId response repo' hg hok => refresh_renews hs hg hok⟩
  · obtain ⟨r, hr, hissued⟩ := hs.stored id row hrow
    obtain ⟨r', hr', hissued'⟩ := hs.stored id' row' hrow'
    obtain ⟨ht, hu, hse, -⟩ := hissued.row_eq
    obtain ⟨ht', hu', hse', -⟩ := hissued'.row_eq
    obtain ⟨h₁, h₂⟩ := hs.owner r hr r' hr' (hse.symm.trans (hsession.trans hse'))
    exact ⟨ht.trans (h₁.trans ht'.symm), hu.trans (h₂.trans hu'.symm)⟩
  · subst hes
    rw [Machine.run_append, h₁, Option.bind_some] at h
    obtain ⟨s₂, h₂, h₃⟩ := Option.bind_eq_some_iff.1 h
    have hs₁ : Sound A s₁ := hsound h₁
    have hdead : Dead A s₂ token := by
      obtain ⟨draw, rfl | ⟨rfl, response, repo', hok⟩⟩ := hspends
      · exact logout_dead hs₁ h₂
      · exact refresh_dead hs₁ h₂ hok
    exact ((sessions A P).run_stays (dead_keeps A P token) h₃
      ⟨sound_keeps A P trivial h₂ hs₁, hdead⟩).2.rejected

/-! ## Alice's session -/

/-- PBKDF2 of "pw" with a salt of zeros. -/
def plainPbkdf2 : Pbkdf2 :=
  let salt : Bytes := List.replicate 16 0
  let digest : Bytes := [
    0x4d, 0x39, 0xeb, 0xa2, 0x1d, 0xe6, 0x31, 0xb4, 0x2c, 0x02, 0x2c, 0x56, 0x2e, 0x58, 0x50, 0x21,
    0x91, 0xf7, 0x33, 0x55, 0x7f, 0xa3, 0x64, 0x81, 0x92, 0x13, 0xa4, 0x26, 0x3a, 0x0f, 0xa9, 0xae]
  let saltHex := "00000000000000000000000000000000"
  let digestHex := "4d39eba21de631b42c022c562e58502191f733557fa364819213a4263a0fa9ae"
  { hmac _ _ _ := .ok digest
    hex data := if data = salt then saltHex else digestHex
    fromhex text := if text = saltHex then some salt else if text = digestHex then some digest else none
    int text := if text = "120000" then some 120000 else none }

/-- What the calls of `aliceSession` draw. -/
def plainDraw (first second : String) : Draw := ⟨first, second, List.replicate 16 0, 0⟩

/-- Alice logs in, refreshes, logs out with the new token, and tries the old one. -/
def aliceSession : List (AuthEvent TokenPayload) :=
  let token (id : TokenId) := (AuthService.plain.newTokens 1 id alice "s1").2.refreshToken
  [.call (.createUser "acme" "alice" "pw" "employee" "active") (plainDraw "u1" "x1"), .tick 1,
    .call (.login "acme" "alice" "pw") (plainDraw "s1" "t1"), .call (.refresh (token "t1")) (plainDraw "t2" "x2"),
    .call (.logout (token "t2")) (plainDraw "x3" "x4"), .call .cleanup (plainDraw "x5" "x6"),
    .call (.refresh (token "t1")) (plainDraw "t3" "x7")]

set_option maxRecDepth 8000 in
/-- `session_laws` for it. -/
theorem session_laws_alice :
    ∃ s, (sessions .plain plainPbkdf2).run (.start .database 0) aliceSession = some s ∧ s.issued.length = 2 ∧
      SessionLaws .plain plainPbkdf2 (.start .database 0) aliceSession s :=
  ⟨_, rfl, rfl, session_laws .plain plainPbkdf2 .database 0 rfl⟩

end Ochestrate
