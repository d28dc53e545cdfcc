import Ochestrate.Auth.Sessions

/-!
# Where an access token comes from

An access token that `decode_access_token` accepts was issued by a login or a
refresh of the run (`access_token_issued`), no longer ago than its time to live,
to a user who was active then, and says what was true of that user then. The two
kinds of token, signed with one key, are told apart by their `typ`.
-/

namespace Ochestrate

variable {τ : Type}

/-- The call issues the access token, in the state `s`, to a user who is active;
`context` is who the user is. -/
structure IssuesAccess (A : AuthService τ) (P : Pbkdf2) (s : AuthRun τ) (draw : Draw) (call : AuthCall τ) (token : τ)
    (context : AuthContext) : Prop where
  kind : (∃ tenantId username password, call = .login tenantId username password) ∨ ∃ token', call = .refresh token'
  /-- The call returns a pair with the token, of the session of the context. -/
  returns : ∃ response repo', A.perform P s.now draw call s.repo = .ok (.tokens response) repo' ∧
    response.accessToken = token ∧ response.sessionId = context.sessionId
  user : ∃ user ∈ s.repo.users.values, user.status = "active" ∧ user.tenantId = context.tenantId ∧
    user.userId = context.userId ∧ user.role = context.role

/-- The access tokens issued so far. -/
def AuthRun.HasIssued (s : AuthRun τ) (token : τ) : Prop := ∃ r ∈ s.issued, r.accessToken = token

theorem eq_of_issuedBy {result : EStateM.Result Exc AuthRepository (AuthAnswer τ)} {r : LoginResponse τ}
    (h : issuedBy result = [r]) : ∃ repo', result = .ok (.tokens r) repo' := by
  unfold issuedBy at h
  split at h
  · obtain rfl := List.singleton_inj.1 h
    exact ⟨_, rfl⟩
  · cases h

variable {A : AuthService τ} {P : Pbkdf2} {s s' : AuthRun τ}

/-- An access token does not pass for a refresh token, nor the other way round. -/
theorem kinds_apart (hs : Sound A s) {r : LoginResponse τ} (hr : r ∈ s.issued) :
    (∀ now, ∃ exc, A.decodeAccessToken now r.refreshToken = .error exc) ∧
      ∀ now newId repo, ∃ exc, A.refresh now newId r.accessToken repo = .error exc repo := by
  obtain ⟨-, id, row, -, hissued⟩ := hs.drawn r hr
  refine ⟨fun now => ?_, fun now newId repo => ?_⟩
  · cases hdecode : A.decodeAccessToken now r.refreshToken with
    | error exc => exact ⟨exc, rfl⟩
    | ok context =>
      obtain ⟨payload, hverify, -, htyp, -⟩ := A.decodeAccessToken_ok hdecode
      obtain ⟨exp, hrefresh⟩ := hissued.refresh
      obtain rfl := Option.some.inj (hverify.symm.trans hrefresh)
      exact absurd (show "refresh" = "access" from htyp) (by decide)
  · rw [A.refresh_eq]
    cases hid : A.presentedId now r.accessToken with
    | error exc => exact ⟨exc, rfl⟩
    | ok id =>
      obtain ⟨payload, hverify, htyp, -⟩ := A.verify_of_presentedId hid
      obtain ⟨exp, haccess⟩ := hissued.access
      obtain rfl := Option.some.inj (hverify.symm.trans haccess)
      exact absurd (show "access" = "refresh" from htyp) (by decide)

variable [DecidableEq τ]

/-- A step that issues the access token is a login or a refresh of an active
user, and what the token says is true of that user. -/
theorem step_issues (hs : Sound A s) {e : AuthEvent τ} (h : (sessions A P).step s e = some s') {token : τ}
    (hold : ¬ s.HasIssued token) (hnew : s'.HasIssued token) :
    ∃ call draw payload, e = .call call draw ∧ A.jwt.verify token = some payload ∧
      payload.exp = (s.now + A.accessTtlMinutes * 60 * second) / second ∧ s'.now = s.now ∧
      ∀ context : AuthContext, payload.role = some context.role → context.tenantId = payload.tenantId →
        context.userId = payload.userId → context.sessionId = payload.sessionId →
        IssuesAccess A P s draw call token context := by
  rcases step_effect hs h with ⟨d, rfl, rfl⟩ | ⟨call, draw, rfl, hfresh, -, rfl, heffect⟩
  · exact absurd hnew hold
  · obtain ⟨r, hr, rfl⟩ := hnew
    have hr' : r ∈ issuedBy (A.perform P s.now draw call s.repo) := by
      rcases List.mem_append.1 hr with hr | hr
      · exact absurd ⟨r, hr, rfl⟩ hold
      · exact hr
    generalize hissued : issuedBy (A.perform P s.now draw call s.repo) = issued at heffect hr'
    generalize (s.after draw (A.perform P s.now draw call s.repo)).repo = repo' at heffect
    cases heffect with
    | quiet h => cases hr'
    | @login tenantId username password user huser hactive =>
      rw [List.mem_singleton] at hr'
      subst hr'
      obtain ⟨repo', hresult⟩ := eq_of_issuedBy hissued
      refine ⟨_, draw, _, rfl, A.jwt.verify_encode _, rfl, rfl, fun context hrole ht hu hse => ?_⟩
      exact ⟨.inl ⟨_, _, _, rfl⟩, ⟨_, repo', hresult, rfl, hse.symm⟩, user,
        (AuthRepository.getUserByUsername_some huser).1, hactive, ht.symm, hu.symm, Option.some.inj hrole⟩
    | @refresh token' id row user hid hrow hlive huser hactive =>
      rw [List.mem_singleton] at hr'
      subst hr'
      obtain ⟨repo', hresult⟩ := eq_of_issuedBy hissued
      refine ⟨_, draw, _, rfl, A.jwt.verify_encode _, rfl, rfl, fun context hrole ht hu hse => ?_⟩
      exact ⟨.inr ⟨_, rfl⟩, ⟨_, repo', hresult, rfl, hse.symm⟩, user,
        (AuthRepository.getUserById_some huser).1, hactive, ht.symm, hu.symm, Option.some.inj hrole⟩

theorem now_keeps (A : AuthService τ) (P : Pbkdf2) (t : Time) :
    (sessions A P).Keeps (fun _ _ => True) fun s => t ≤ s.now := by
  intro s e s' _ h ht
  cases e with
  | tick d =>
    obtain rfl := Option.some.inj h
    exact Int.le_trans ht (Int.le_add_of_nonneg_right (Int.natCast_nonneg d))
  | call call draw =>
    obtain ⟨-, h⟩ := Option.ite_none_right_eq_some.1 h
    obtain rfl := Option.some.inj h
    exact ht

/-- In every run: an access token that is accepted was issued in the run, less
than its time to live ago, to the user that its context says; and no token
passes for the other kind. -/
theorem access_token_issued (A : AuthService τ) (P : Pbkdf2) (mode : RepoMode) (now₀ : Time)
    {es : List (AuthEvent τ)} {s : AuthRun τ} (h : (sessions A P).run (.start mode now₀) es = some s) :
    (∀ token context, s.Genuine A token → A.decodeAccessToken s.now token = .ok context →
      ∃ es₁ call draw es₂ s₁, es = es₁ ++ .call call draw :: es₂ ∧
        (sessions A P).run (.start mode now₀) es₁ = some s₁ ∧ IssuesAccess A P s₁ draw call token context ∧
        s₁.now ≤ s.now ∧ s.now < s₁.now + A.accessTtlMinutes * 60 * second) ∧
    ∀ r ∈ s.issued, (∀ now, ∃ exc, A.decodeAccessToken now r.refreshToken = .error exc) ∧
      ∀ now newId repo, ∃ exc, A.refresh now newId r.accessToken repo = .error exc repo := by
  have hsound : ∀ {es s}, (sessions A P).run (.start mode now₀) es = some s → Sound A s :=
    fun h => (sessions A P).run_stays (sound_keeps A P) h (.start A mode now₀)
  refine ⟨fun token context hg hok => ?_, fun r hr => kinds_apart (hsound h) hr⟩
  obtain ⟨payload, hverify, hexp, htyp, hrole, ht, hu, hse⟩ := A.decodeAccessToken_ok hok
  have hissued : s.HasIssued token := by
    obtain ⟨r, hr, id, -, row, -, ⟨htoken, -⟩ | ⟨-, hrefresh, -⟩⟩ := (hsound h).genuine hg hverify
    · exact ⟨r, hr, htoken⟩
    · rw [htyp] at hrefresh
      exact absurd hrefresh (by decide)
  have hnone : ¬ (AuthRun.start mode now₀ : AuthRun τ).HasIssued token := by
    rintro ⟨r, hr, -⟩
    cases hr
  obtain ⟨es₁, e, es₂, s₁, s₂, hes, h₁, h₂, h₃, hold, hnew⟩ := (sessions A P).run_acquires
    (P := fun s => s.HasIssued token) h hnone hissued
  obtain ⟨call, draw, payload', rfl, hverify', hexp', hnow, hwho⟩ := step_issues (hsound h₁) h₂ hold hnew
  obtain rfl := Option.some.inj (hverify.symm.trans hverify')
  have hle : s₂.now ≤ s.now := (sessions A P).run_stays (now_keeps A P s₂.now) h₃ (Int.le_refl _)
  refine ⟨es₁, call, draw, es₂, s₁, hes, h₁, hwho context hrole ht hu hse, hnow ▸ hle, ?_⟩
  -- the truncation of `exp` only shortens the life of the token
  calc s.now < payload.exp * second := hexp
    _ ≤ s₁.now + A.accessTtlMinutes * 60 * second := by
      rw [hexp']
      exact Int.ediv_mul_le _ (by decide)

/-- Alice logs in, and half an hour goes by but for a second. -/
def aliceLogin : List (AuthEvent TokenPayload) :=
  [.call (.createUser "acme" "alice" "pw" "employee" "active") (plainDraw "u1" "x1"), .tick 1,
    .call (.login "acme" "alice" "pw") (plainDraw "s1" "t1"), .tick 1799000000]

def aliceAccess : TokenPayload := (AuthService.plain.newTokens 1 "t1" alice "s1").2.accessToken

set_option maxRecDepth 8000 in
/-- `access_token_issued` for her access token. -/
theorem access_token_issued_alice :
    ∃ s context, (sessions .plain plainPbkdf2).run (.start .database 0) aliceLogin = some s ∧
      AuthService.plain.decodeAccessToken s.now aliceAccess = .ok context ∧
      ∃ es₁ call draw es₂ s₁, aliceLogin = es₁ ++ .call call draw :: es₂ ∧
        (sessions .plain plainPbkdf2).run (.start .database 0) es₁ = some s₁ ∧
        IssuesAccess .plain plainPbkdf2 s₁ draw call aliceAccess context ∧
        s₁.now ≤ s.now ∧ s.now < s₁.now + 30 * 60 * second := by
  have hrun : ∃ s, (sessions .plain plainPbkdf2).run (.start .database 0) aliceLogin = some s ∧
      s.now = 1799000001 ∧ s.Genuine .plain aliceAccess := ⟨_, rfl, rfl, fun _ => ⟨_, List.mem_cons_self .., .inl rfl⟩⟩
  obtain ⟨s, hs, hnow, hg⟩ := hrun
  have haccess : AuthService.plain.decodeAccessToken s.now aliceAccess = .ok ⟨"acme", "u1", "employee", "s1", 1800⟩ := by
    rw [hnow]
    rfl
  exact ⟨s, _, hs, haccess, (access_token_issued .plain plainPbkdf2 .database 0 hs).1 _ _ hg haccess⟩

end Ochestrate
