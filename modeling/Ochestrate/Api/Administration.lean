import Ochestrate.Api.Gateway

/-!
# Who administers the users

Runs of the gateway from an empty store. The first user is the administrator of a
bootstrap, and administrators write users of their own tenant only: a store never
holds users of two tenants, and no request is from another tenant (`one_tenant`).
Whoever changes a user was an active administrator of the tenant less than the
time to live of an access token before (`changed_by_admin`). Without an active
administrator, and with the tokens of the last one expired, the users never change
again (`lockout_permanent`).
-/

namespace Ochestrate

variable {τ : Type} {G : Gateway τ} {s : AuthRun τ} {draw : Draw} {request : ApiRequest τ}

namespace AuthRepository

variable {repo : AuthRepository}

theorem isEmpty_of_users {repo' : AuthRepository} (h : repo'.users = repo.users) : repo'.isEmpty = repo.isEmpty := by
  rw [isEmpty, h, isEmpty]

theorem isEmpty_putUser (user : UserRecord) : (repo.putUser user).isEmpty = false := by
  rw [Bool.eq_false_iff]
  intro hempty
  have hnone := (repo.putUser user).isEmpty_iff.1 hempty (user.tenantId, user.username)
  rw [putUser, Dict.get?_set_self] at hnone
  cases hnone

theorem mem_users_putUser {user user' : UserRecord} (h : user' ∈ (repo.putUser user).users.values) :
    user' = user ∨ user' ∈ repo.users.values := by
  obtain ⟨key, hkey⟩ := (Dict.mem_values _).1 h
  rw [putUser, Dict.get?_set] at hkey
  split at hkey
  · exact .inl (Option.some.inj hkey).symm
  · exact .inr ((Dict.mem_values _).2 ⟨key, hkey⟩)

theorem not_hasActive_of_isEmpty (h : repo.isEmpty = true) {tenantId userId role : String} :
    ¬ repo.HasActive tenantId userId role := by
  rintro ⟨user, huser, -⟩
  rw [isEmpty, List.isEmpty_iff] at h
  rw [h] at huser
  cases huser

end AuthRepository

/-! ## One tenant -/

/-- Nobody has been created, and no token was issued. -/
def Vacant (s : AuthRun τ) : Prop := s.repo.isEmpty = true ∧ s.issued = []

/-- All users are of the tenant, and so are all tokens. -/
structure OfTenant (tenantId : String) (s : AuthRun τ) : Prop where
  inhabited : s.repo.isEmpty = false
  users : ∀ user ∈ s.repo.users.values, user.tenantId = tenantId
  issued : ∀ r ∈ s.issued, r.tenantId = tenantId

theorem OfTenant.putUser {tenantId : String} (h : OfTenant tenantId s) {user : UserRecord}
    (huser : user.tenantId = tenantId) {user' : UserRecord} (h' : user' ∈ (s.repo.putUser user).users.values) :
    user'.tenantId = tenantId := by
  rcases AuthRepository.mem_users_putUser h' with rfl | h'
  · exact huser
  · exact h.users user' h'

theorem OfTenant.handled {tenantId : String} (ht : OfTenant tenantId s) (hs : Sound G.auth s)
    (hg : ∀ token ∈ G.presented request, s.Genuine G.auth token) {repo' : AuthRepository}
    {issued : List (LoginResponse τ)} (h : Handled G s draw request repo' issued) (drawn : List String) :
    OfTenant tenantId ⟨s.now, repo', drawn, s.issued ++ issued⟩ := by
  cases h with
  | kept heffect husers =>
    refine ⟨(AuthRepository.isEmpty_of_users husers).trans ht.inhabited, husers ▸ ht.users, fun r hr => ?_⟩
    rcases List.mem_append.1 hr with hr | hr
    · exact ht.issued r hr
    · obtain ⟨⟨user, huser, -, htenant, -⟩, -⟩ := heffect.issued_to hr
      exact htenant.symm.trans (ht.users user huser)
  | bootstrapped _ _ hempty =>
    rw [ht.inhabited] at hempty
    cases hempty
  | administered _ hcontext _ htenant =>
    obtain ⟨r, hr, hr', -⟩ := accepted_issued hs (header_genuine hg) hcontext
    refine ⟨AuthRepository.isEmpty_putUser _, fun user' => ht.putUser ?_, fun r hr => ht.issued r ?_⟩
    · exact htenant.trans (hr'.symm.trans (ht.issued r hr))
    · exact (List.append_nil s.issued) ▸ hr

/-- In a store without users only a bootstrap does something. -/
theorem Vacant.handled (hv : Vacant s) (hs : Sound G.auth s)
    (hg : ∀ token ∈ G.presented request, s.Genuine G.auth token) {repo' : AuthRepository}
    {issued : List (LoginResponse τ)} (h : Handled G s draw request repo' issued) (drawn : List String) :
    Vacant (⟨s.now, repo', drawn, s.issued ++ issued⟩ : AuthRun τ) ∨
      ∃ payload tenantId, request.endpoint = .bootstrapAdmin payload ∧ G.bootstrapEnabled = true ∧
        payload.tenantId = some tenantId ∧ OfTenant tenantId (⟨s.now, repo', drawn, s.issued ++ issued⟩ : AuthRun τ) := by
  obtain ⟨hempty, hnone⟩ := hv
  cases h with
  | kept heffect husers =>
    refine .inl ⟨(AuthRepository.isEmpty_of_users husers).trans hempty, ?_⟩
    rw [hnone, List.nil_append, List.eq_nil_iff_forall_not_mem]
    exact fun r hr => AuthRepository.not_hasActive_of_isEmpty hempty (heffect.issued_to hr).1
  | @bootstrapped payload user hendpoint henabled _ htenant _ =>
    refine .inr ⟨payload, user.tenantId, hendpoint, henabled, htenant, AuthRepository.isEmpty_putUser _, ?_, ?_⟩
    · intro user' huser'
      rcases AuthRepository.mem_users_putUser huser' with rfl | huser'
      · rfl
      · rw [AuthRepository.isEmpty, List.isEmpty_iff] at hempty
        rw [hempty] at huser'
        cases huser'
    · intro r hr
      rw [hnone] at hr
      cases hr
  | administered _ hcontext =>
    obtain ⟨r, hr, -⟩ := accepted_issued hs (header_genuine hg) hcontext
    rw [hnone] at hr
    cases hr

/-! ## Without an administrator -/

/-- Nobody administers the users, who are those of `repo`, and no token that is
valid after `t` says otherwise. -/
structure LockedOut (G : Gateway τ) (repo : AuthRepository) (t : Time) (s : AuthRun τ) : Prop where
  sound : Sound G.auth s
  users : s.repo.users = repo.users
  inhabited : s.repo.isEmpty = false
  leaderless : ∀ tenantId userId, ¬ s.repo.HasActive tenantId userId "admin"
  outdated : Outdated G (fun _ _ role => role = "admin") t s
  past : t ≤ s.now

theorem LockedOut.not_admin {repo : AuthRepository} {t : Time} (h : LockedOut G repo t s) {header : String}
    (hg : ∀ token ∈ G.headerToken header, s.Genuine G.auth token) {context : AuthContext}
    (hcontext : G.contextOf s.now header = .ok (some context)) : context.role ≠ "admin" :=
  h.outdated.not_accepted h.sound h.past hg hcontext

theorem hasActive_congr {repo repo' : AuthRepository} (h : repo'.users = repo.users) {tenantId userId role : String} :
    repo'.HasActive tenantId userId role ↔ repo.HasActive tenantId userId role := by
  rw [AuthRepository.HasActive, h, AuthRepository.HasActive]

/-- Who is no administrator is refused. -/
theorem answer_refused {now : Time} {repo : AuthRepository} (hendpoint : request.endpoint.Administers)
    (hadmin : ∀ context, G.contextOf now request.authorization = .ok (some context) → context.role ≠ "admin") :
    ∃ error, G.answer now draw request repo = .error error repo ∧ error.statusCode ∈ [401, 403, 500] := by
  unfold Gateway.answer
  cases hcontext : G.contextOf now request.authorization with
  | error exc => exact ⟨internalServerError, rfl, by decide⟩
  | ok context =>
    cases context with
    | none =>
      refine ⟨⟨401, "authentication required"⟩, ?_, by decide⟩
      cases hrequest : request.endpoint with
      | createUser | listUsers | updateUser => rfl
      | login | refresh | logout | bootstrapAdmin | business =>
        rw [hrequest] at hendpoint
        cases hendpoint
    | some auth =>
      have hensure : UsersApi.ensureAdmin auth repo = .error ⟨403, "admin role required"⟩ repo := by
        rw [UsersApi.ensureAdmin, if_pos (hadmin auth hcontext)]
        rfl
      refine ⟨⟨403, "admin role required"⟩, ?_, by decide⟩
      change G.serve now draw (some auth) request.endpoint repo = _
      cases hrequest : request.endpoint with
      | createUser | listUsers | updateUser =>
        rw [Gateway.serve, requireAuthContext, pure_bind]
        exact bind_error (bind_error hensure _) _
      | login | refresh | logout | bootstrapAdmin | business =>
        rw [hrequest] at hendpoint
        cases hendpoint

/-! ## Runs -/

variable [DecidableEq τ]

theorem ofTenant_keeps (G : Gateway τ) (tenantId : String) :
    (gateway G).Keeps (fun _ _ => True) fun s => Sound G.auth s ∧ OfTenant tenantId s := by
  rintro s e s' _ h ⟨hs, ht⟩
  refine ⟨gateway_sound G trivial h hs, ?_⟩
  rcases gateway_step hs h with ⟨d, rfl, rfl⟩ | ⟨request, draw, issued, rfl, -, hg, hs', hhandled⟩
  · exact ⟨ht.inhabited, ht.users, ht.issued⟩
  · rw [hs']
    exact ht.handled hs hg hhandled _

/-- A run stays vacant up to a bootstrap, and then is of its tenant. -/
theorem vacant_run {es : List (GatewayEvent τ)} {s s' : AuthRun τ} (h : (gateway G).run s es = some s')
    (hs : Sound G.auth s) (hv : Vacant s) :
    Vacant s' ∨ ∃ es₁ header payload draw es₂ tenantId,
      es = es₁ ++ .request ⟨header, .bootstrapAdmin payload⟩ draw :: es₂ ∧ G.bootstrapEnabled = true ∧
        payload.tenantId = some tenantId ∧ OfTenant tenantId s' := by
  induction es generalizing s with
  | nil => exact .inl (Option.some.inj h ▸ hv)
  | cons e es ih =>
    obtain ⟨s₁, h₁, h₂⟩ := Option.bind_eq_some_iff.1 h
    have hs₁ := gateway_sound G trivial h₁ hs
    have hlater : Vacant s₁ → Vacant s' ∨ ∃ es₁ header payload draw es₂ tenantId,
        e :: es = es₁ ++ .request ⟨header, .bootstrapAdmin payload⟩ draw :: es₂ ∧ G.bootstrapEnabled = true ∧
          payload.tenantId = some tenantId ∧ OfTenant tenantId s' := by
      intro hv₁
      refine (ih h₂ hs₁ hv₁).imp id ?_
      rintro ⟨es₁, header, payload, draw, es₂, tenantId, rfl, hrest⟩
      exact ⟨e :: es₁, header, payload, draw, es₂, tenantId, rfl, hrest⟩
    rcases gateway_step hs h₁ with ⟨d, rfl, rfl⟩ | ⟨⟨header, endpoint⟩, draw, issued, rfl, -, hg, hs', hhandled⟩
    · exact hlater hv
    · rcases hv.handled hs hg hhandled (draw.first :: draw.second :: s.drawn) with
        hv₁ | ⟨payload, tenantId, rfl, henabled, htenant, ht⟩
      · exact hlater (hs' ▸ hv₁)
      · have hstays := (gateway G).run_stays (ofTenant_keeps G tenantId) h₂ ⟨hs₁, hs' ▸ ht⟩
        exact .inr ⟨[], header, payload, draw, es, tenantId, rfl, henabled, htenant, hstays.2⟩

/-- In every run of requests, one after the other, from an empty store: nobody
exists and no request has a context; or there was a bootstrap, which was enabled,
and all users and all requests with a context are of its tenant. -/
theorem one_tenant (G : Gateway τ) (mode : RepoMode) (now₀ : Time) {es : List (GatewayEvent τ)} {s : AuthRun τ}
    (h : (gateway G).run (.start mode now₀) es = some s) :
    (s.repo.isEmpty = true ∧ ∀ header context, (∀ token ∈ G.headerToken header, s.Genuine G.auth token) →
        G.contextOf s.now header ≠ .ok (some context)) ∨
      ∃ es₁ header payload draw es₂ tenantId,
        es = es₁ ++ .request ⟨header, .bootstrapAdmin payload⟩ draw :: es₂ ∧ G.bootstrapEnabled = true ∧
          payload.tenantId = some tenantId ∧ (∀ user ∈ s.repo.users.values, user.tenantId = tenantId) ∧
          ∀ header context, (∀ token ∈ G.headerToken header, s.Genuine G.auth token) →
            G.contextOf s.now header = .ok (some context) → context.tenantId = tenantId := by
  have hs := (gateway G).run_stays (gateway_sound G) h (.start G.auth mode now₀)
  rcases vacant_run h (.start G.auth mode now₀) ⟨rfl, rfl⟩ with
    ⟨hempty, hnone⟩ | ⟨es₁, header, payload, draw, es₂, tenantId, hes, henabled, htenant, ht⟩
  · refine .inl ⟨hempty, fun header context hg hcontext => ?_⟩
    obtain ⟨r, hr, -⟩ := accepted_issued hs hg hcontext
    rw [hnone] at hr
    cases hr
  · refine .inr ⟨es₁, header, payload, draw, es₂, tenantId, hes, henabled, htenant, ht.users, ?_⟩
    intro header context hg hcontext
    obtain ⟨r, hr, htenant, -⟩ := accepted_issued hs hg hcontext
    exact htenant.symm.trans (ht.issued r hr)

set_option maxRecDepth 8000 in
/-- `one_tenant` for the two. -/
theorem one_tenant_acme :
    ∃ s, (gateway acmeGateway).run (.start .database 0) acmeUsers = some s ∧ s.repo.isEmpty = false ∧
      ∃ tenantId, (∀ user ∈ s.repo.users.values, user.tenantId = tenantId) ∧
        ∀ header context, (∀ token ∈ acmeGateway.headerToken header, s.Genuine acmeGateway.auth token) →
          acmeGateway.contextOf s.now header = .ok (some context) → context.tenantId = tenantId := by
  have hrun : ∃ s, (gateway acmeGateway).run (.start .database 0) acmeUsers = some s ∧ s.repo.isEmpty = false :=
    ⟨_, rfl, rfl⟩
  obtain ⟨s, hs, hinhabited⟩ := hrun
  rcases one_tenant acmeGateway .database 0 hs with ⟨hempty, -⟩ | ⟨-, -, -, -, -, tenantId, -, -, -, husers, hcontexts⟩
  · rw [hinhabited] at hempty
    cases hempty
  · exact ⟨s, hs, hinhabited, tenantId, husers, hcontexts⟩

/-- In every run a request that changes the users writes one of them: the first,
as a bootstrap; or one of the tenant of its caller, whom the request's header shows
as an administrator of this tenant, and who was an active one less than the time to
live of an access token ago. -/
theorem changed_by_admin (G : Gateway τ) (mode : RepoMode) (now₀ : Time) {es : List (GatewayEvent τ)}
    {s s' : AuthRun τ} (h : (gateway G).run (.start mode now₀) es = some s) {request : ApiRequest τ} {draw : Draw}
    (h' : (gateway G).step s (.request request draw) = some s') (hchanged : s'.repo.users ≠ s.repo.users) :
    ∃ user : UserRecord, s'.repo = s.repo.putUser user ∧
      ((s.repo.isEmpty = true ∧ user.role = "admin" ∧ user.status = "active" ∧
          ∃ payload, request.endpoint = .bootstrapAdmin payload ∧ payload.tenantId = some user.tenantId) ∨
        (request.endpoint.Administers ∧ ∃ context, G.contextOf s.now request.authorization = .ok (some context) ∧
          context.role = "admin" ∧ context.tenantId = user.tenantId ∧ ∃ es₁ e es₂ s₁, es = es₁ ++ e :: es₂ ∧
            (gateway G).run (.start mode now₀) es₁ = some s₁ ∧
            s₁.repo.HasActive context.tenantId context.userId "admin" ∧ s₁.now ≤ s.now ∧
            s.now < G.auth.accessEnd s₁.now)) := by
  have hs := (gateway G).run_stays (gateway_sound G) h (.start G.auth mode now₀)
  rcases gateway_step hs h' with ⟨d, he, -⟩ | ⟨request', draw', issued, he, -, hg, -, hhandled⟩
  · cases he
  · obtain ⟨rfl, rfl⟩ := GatewayEvent.request.inj he
    generalize hrepo' : s'.repo = repo' at hhandled hchanged
    cases hhandled with
    | kept heffect husers => exact absurd husers hchanged
    | @bootstrapped payload user hendpoint henabled hempty htenant hadmin =>
      exact ⟨user, rfl, .inl ⟨hempty, hadmin.1, hadmin.2, payload, hendpoint, htenant⟩⟩
    | @administered context user hendpoint hcontext hadmin htenant =>
      obtain ⟨es₁, e, es₂, s₁, hes, h₁, hactive, hnow⟩ :=
        accepted_was_active G mode now₀ h (header_genuine hg) hcontext
      rw [hadmin] at hactive
      exact ⟨user, rfl, .inr ⟨hendpoint, context, hcontext, hadmin, htenant.symm, es₁, e, es₂, s₁, hes, h₁, hactive, hnow⟩⟩

set_option maxRecDepth 8000 in
/-- `changed_by_admin` for Bob, whom Alice disables. -/
theorem changed_by_admin_bob :
    ∃ s s', (gateway acmeGateway).run (.start .database 0) acmeUsers = some s ∧
      (gateway acmeGateway).step s (.request (aliceChanges "u2" none (some "disabled")) (plainDraw "x3" "x4")) = some s' ∧
      ∃ user : UserRecord, s'.repo = s.repo.putUser user ∧ ∃ context : AuthContext,
        acmeGateway.contextOf s.now (aliceChanges "u2" none (some "disabled")).authorization = .ok (some context) ∧
        context.userId = "u1" ∧ context.role = "admin" ∧ context.tenantId = user.tenantId ∧
        ∃ es₁ e es₂ s₁, acmeUsers = es₁ ++ e :: es₂ ∧ (gateway acmeGateway).run (.start .database 0) es₁ = some s₁ ∧
          s₁.repo.HasActive context.tenantId context.userId "admin" := by
  have hrun : ∃ s s' context, (gateway acmeGateway).run (.start .database 0) acmeUsers = some s ∧
      (gateway acmeGateway).step s (.request (aliceChanges "u2" none (some "disabled")) (plainDraw "x3" "x4")) = some s' ∧
      s.repo.users.values.map (·.status) = ["active", "active"] ∧
      s'.repo.users.values.map (·.status) = ["active", "disabled"] ∧
      acmeGateway.contextOf s.now (aliceChanges "u2" none (some "disabled")).authorization = .ok (some context) ∧
      context.userId = "u1" := ⟨_, _, _, rfl, rfl, rfl, rfl, rfl, rfl⟩
  obtain ⟨s, s', alice, hs, hs', hbefore, hafter, halice, hid⟩ := hrun
  have hchanged : s'.repo.users ≠ s.repo.users := by
    intro hsame
    rw [hsame, hbefore] at hafter
    exact absurd hafter (by decide)
  obtain ⟨user, hwrite, ⟨-, -, -, payload, hendpoint, -⟩ |
      ⟨-, context, hcontext, hadmin, htenant, es₁, e, es₂, s₁, hes, h₁, hactive, -⟩⟩ :=
    changed_by_admin acmeGateway .database 0 hs hs' hchanged
  · cases hendpoint
  · obtain rfl : alice = context := Option.some.inj (Except.ok.inj (halice.symm.trans hcontext))
    exact ⟨s, s', hs, hs', user, hwrite, alice, hcontext, hid, hadmin, htenant, es₁, e, es₂, s₁, hes, h₁, hactive⟩

theorem lockedOut_keeps (G : Gateway τ) (repo : AuthRepository) (t : Time) :
    (gateway G).Keeps (fun _ _ => True) (LockedOut G repo t) := by
  intro s e s' _ h hlocked
  have hs' := gateway_sound G trivial h hlocked.sound
  have hpast := gateway_now G t trivial h hlocked.past
  rcases gateway_step hlocked.sound h with ⟨d, rfl, rfl⟩ | ⟨request, draw, issued, rfl, -, hg, heq, hhandled⟩
  · exact ⟨hs', hlocked.users, hlocked.inhabited, hlocked.leaderless, hlocked.outdated, hpast⟩
  · have houtdated : Outdated G (fun _ _ role => role = "admin") t s' := by
      refine hlocked.outdated.handled hhandled (fun tenantId userId role hactive hrole => ?_) (congrArg AuthRun.issued heq)
      exact absurd (hrole ▸ hactive) (hlocked.leaderless tenantId userId)
    generalize hrepo' : s'.repo = repo' at hhandled
    cases hhandled with
    | kept heffect husers =>
      have hsame : s'.repo.users = s.repo.users := hrepo' ▸ husers
      exact ⟨hs', hsame.trans hlocked.users, (AuthRepository.isEmpty_of_users hsame).trans hlocked.inhabited,
        fun tenantId userId hactive => hlocked.leaderless tenantId userId ((hasActive_congr hsame).1 hactive), houtdated,
        hpast⟩
    | bootstrapped _ _ hempty =>
      rw [hlocked.inhabited] at hempty
      cases hempty
    | administered _ hcontext hadmin => exact absurd hadmin (hlocked.not_admin (header_genuine hg) hcontext)

/-- In every run, from a state on in which there are users, none of them is an
active administrator, and no access token of an administrator is valid any more:
the users never change, and the endpoints for administrators refuse every request. -/
theorem lockout_permanent (G : Gateway τ) (mode : RepoMode) (now₀ : Time) {es es' : List (GatewayEvent τ)}
    {s s' : AuthRun τ} (h : (gateway G).run (.start mode now₀) es = some s) (h' : (gateway G).run s es' = some s')
    (hinhabited : s.repo.isEmpty = false) (hleaderless : ∀ tenantId userId, ¬ s.repo.HasActive tenantId userId "admin")
    (hexpired : ∀ r ∈ s.issued, r.role = "admin" → ∃ exc, G.auth.decodeAccessToken s.now r.accessToken = .error exc) :
    s'.repo.users = s.repo.users ∧
      ∀ request draw, request.endpoint.Administers →
        (∀ token ∈ G.presented request, s'.Genuine G.auth token) →
        ∃ error, G.answer s'.now draw request s'.repo = .error error s'.repo ∧ error.statusCode ∈ [401, 403, 500] := by
  have hs := (gateway G).run_stays (gateway_sound G) h (.start G.auth mode now₀)
  have houtdated : Outdated G (fun _ _ role => role = "admin") s.now s :=
    fun r hr hrole => hs.expiresBy hr (hexpired r hr hrole)
  have hlocked := (gateway G).run_stays (lockedOut_keeps G s.repo s.now) h'
    ⟨hs, rfl, hinhabited, hleaderless, houtdated, Int.le_refl _⟩
  refine ⟨hlocked.users, fun request draw hendpoint hg => answer_refused hendpoint fun context hcontext => ?_⟩
  exact hlocked.not_admin (header_genuine hg) hcontext

set_option maxRecDepth 8000 in
/-- `lockout_permanent` after Alice gave herself another role: she cannot take it
back. -/
theorem lockout_permanent_acme :
    ∃ s s', (gateway acmeGateway).run (.start .database 0)
        (acmeUsers ++ [.request (aliceChanges "u1" (some "employee") none) (plainDraw "x3" "x4"), .tick 1800000000]) =
          some s ∧
      (gateway acmeGateway).run s [.request ⟨"", .login ⟨"acme", "alice", "sesame", by decide⟩⟩ (plainDraw "s3" "t3")] =
        some s' ∧ s'.issued.length = 2 ∧
      ∃ error, acmeGateway.answer s'.now (plainDraw "x5" "x6") (aliceChanges "u1" (some "admin") none) s'.repo =
        .error error s'.repo := by
  have hrun : ∃ s s', (gateway acmeGateway).run (.start .database 0)
        (acmeUsers ++ [.request (aliceChanges "u1" (some "employee") none) (plainDraw "x3" "x4"), .tick 1800000000]) =
          some s ∧
      (gateway acmeGateway).run s [.request ⟨"", .login ⟨"acme", "alice", "sesame", by decide⟩⟩ (plainDraw "s3" "t3")] =
        some s' ∧ s'.issued.length = 2 ∧ s.repo.isEmpty = false ∧
      (∀ user ∈ s.repo.users.values, user.role ≠ "admin") ∧
      (∀ r ∈ s.issued, (AuthService.plain.decodeAccessToken s.now r.accessToken).toOption = none) ∧
      ∀ token ∈ acmeGateway.presented (aliceChanges "u1" (some "admin") none), s'.Genuine acmeGateway.auth token :=
    ⟨_, _, rfl, rfl, rfl, rfl, by decide, by decide, by decide⟩
  obtain ⟨s, s', hs, hs', hlogin, hinhabited, hroles, hexpired, hg⟩ := hrun
  have hleaderless : ∀ tenantId userId, ¬ s.repo.HasActive tenantId userId "admin" :=
    fun _ _ ⟨user, huser, _, _, _, hrole⟩ => hroles user huser hrole
  have hdead : ∀ r ∈ s.issued, r.role = "admin" →
      ∃ exc, AuthService.plain.decodeAccessToken s.now r.accessToken = .error exc := by
    intro r hr _
    have hnone := hexpired r hr
    cases hdecode : AuthService.plain.decodeAccessToken s.now r.accessToken with
    | error exc => exact ⟨exc, rfl⟩
    | ok context => rw [hdecode] at hnone; cases hnone
  obtain ⟨error, herror, -⟩ :=
    (lockout_permanent acmeGateway .database 0 hs hs' hinhabited hleaderless hdead).2
      (aliceChanges "u1" (some "admin") none) (plainDraw "x5" "x6") trivial hg
  exact ⟨s, s', hs, hs', hlogin, error, herror⟩

end Ochestrate
