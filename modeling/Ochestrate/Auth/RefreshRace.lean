import Ochestrate.Framework.Machine
import Ochestrate.Auth.Service

/-!
# Concurrent refreshes

Any number of `refresh` requests interleave at their calls of the repository:
look the token up, look the user up, revoke the token, store the new one. A
`RefreshRun` is the repository with the requests in progress; `run_refresh`
connects the steps to the method.

A request that has found its token valid will exchange it, and its revocation
comes two calls later. A second request for the token that looks it up in
between finds it valid too (`RefreshRun.overlaps`), and both exchange it.
Without such a step a token is exchanged at most once (`exchanged_once`): at any
time one request at most holds a token (`Guarded`), and a token that was revoked
by its holder is found revoked by everybody else.
-/

namespace Ochestrate

/-- How far a request is: its token id is decoded, its token is checked, its
user is checked, its token is revoked, it has returned or raised. -/
inductive RefreshStage (τ : Type)
  | decoded
  | checked (row : RefreshToken)
  | confirmed (row : RefreshToken) (user : UserRecord)
  | revoked (row : RefreshToken) (user : UserRecord)
  | returned (response : LoginResponse τ)
  | failed (exc : Exc)

structure RefreshRequest (τ : Type) where
  token : τ
  tokenId : TokenId
  stage : RefreshStage τ

structure RefreshRun (τ : Type) where
  now : Time
  repo : AuthRepository
  requests : Dict Nat (RefreshRequest τ) := .empty

inductive RefreshEvent (τ : Type)
  | tick (d : Nat)
  | present (i : Nat) (token : τ)
  | lookup (i : Nat)
  | user (i : Nat)
  | revoke (i : Nat)
  | store (i : Nat) (newId : TokenId)

namespace RefreshStage

variable {τ : Type}

/-- The stage after a check. -/
def ofExcept {α : Type} (f : α → RefreshStage τ) : Except Exc α → RefreshStage τ
  | .ok a => f a
  | .error exc => .failed exc

/-- The stage of a request that ended. -/
def ofResult : EStateM.Result Exc AuthRepository (LoginResponse τ) → RefreshStage τ
  | .ok response _ => .returned response
  | .error exc _ => .failed exc

/-- The token was found valid and is not yet revoked. -/
def pending : RefreshStage τ → Bool
  | checked _ | confirmed .. => true
  | _ => false

/-- The token was found valid and is revoked. -/
def spent : RefreshStage τ → Bool
  | revoked .. | returned _ => true
  | _ => false

/-- The request holds its token. -/
def holds (stage : RefreshStage τ) : Bool := stage.pending || stage.spent

end RefreshStage

namespace RefreshRun

variable {τ : Type}

/-- A request reaches a stage. -/
def reach (s : RefreshRun τ) (i : Nat) (r : RefreshRequest τ) (stage : RefreshStage τ) : RefreshRun τ :=
  { s with requests := s.requests.set i { r with stage := stage } }

/-- The local checks of a new request. -/
def present (A : AuthService τ) (s : RefreshRun τ) (i : Nat) (token : τ) : RefreshRun τ :=
  match A.presentedId s.now token with
  | .ok tokenId => { s with requests := s.requests.set i ⟨token, tokenId, .decoded⟩ }
  | .error exc => { s with requests := s.requests.set i ⟨token, "", .failed exc⟩ }

end RefreshRun

/-- The machine of the requests. -/
def refreshes {τ : Type} (A : AuthService τ) : Machine (RefreshRun τ) (RefreshEvent τ) where
  step s
    | .tick d => some { s with now := s.now + d }
    | .present i token => if s.requests.get? i = none then some (s.present A i token) else none
    | .lookup i => (s.requests.get? i).bind fun r => match r.stage with
      | .decoded => some (s.reach i r
          (.ofExcept .checked (A.checkToken s.now r.token (s.repo.getRefreshToken r.tokenId))))
      | _ => none
    | .user i => (s.requests.get? i).bind fun r => match r.stage with
      | .checked row => some (s.reach i r
          (.ofExcept (.confirmed row) (AuthService.checkUser (s.repo.getUserById row.tenantId row.userId))))
      | _ => none
    | .revoke i => (s.requests.get? i).bind fun r => match r.stage with
      | .confirmed row user =>
        some { s.reach i r (.revoked row user) with repo := s.repo.revokeRefreshToken r.tokenId }
      | _ => none
    | .store i newId => (s.requests.get? i).bind fun r => match r.stage with
      | .revoked row user =>
        -- `uuid4` draws an id that no token has
        if s.repo.getRefreshToken newId = none then
          let result := A.issueTokens s.now newId user row.sessionId s.repo
          some { s.reach i r (.ofResult result) with repo := finalState result }
        else none
      | _ => none

/-! ## The method as a run -/

variable {τ : Type}

/-- The steps of a refresh; one that raises takes the first of them. -/
def refreshEvents (i : Nat) (token : τ) (newId : TokenId) : List (RefreshEvent τ) :=
  [.present i token, .lookup i, .user i, .revoke i, .store i newId]

variable {A : AuthService τ} {s : RefreshRun τ} {i : Nat} {r : RefreshRequest τ}

theorem lookup_step (hi : s.requests.get? i = some r) (hstage : r.stage = .decoded) :
    (refreshes A).step s (.lookup i) = some (s.reach i r
      (.ofExcept .checked (A.checkToken s.now r.token (s.repo.getRefreshToken r.tokenId)))) := by
  simp only [refreshes, hi, Option.bind_some, hstage]

theorem user_step (hi : s.requests.get? i = some r) {row : RefreshToken} (hstage : r.stage = .checked row) :
    (refreshes A).step s (.user i) = some (s.reach i r
      (.ofExcept (.confirmed row) (AuthService.checkUser (s.repo.getUserById row.tenantId row.userId)))) := by
  simp only [refreshes, hi, Option.bind_some, hstage]

theorem revoke_step (hi : s.requests.get? i = some r) {row : RefreshToken} {user : UserRecord}
    (hstage : r.stage = .confirmed row user) :
    (refreshes A).step s (.revoke i) =
      some { s.reach i r (.revoked row user) with repo := s.repo.revokeRefreshToken r.tokenId } := by
  simp only [refreshes, hi, Option.bind_some, hstage]

theorem store_step (hi : s.requests.get? i = some r) {row : RefreshToken} {user : UserRecord}
    (hstage : r.stage = .revoked row user) {newId : TokenId} (hnew : s.repo.getRefreshToken newId = none) :
    (refreshes A).step s (.store i newId) =
      some { s.reach i r (.ofResult (A.issueTokens s.now newId user row.sessionId s.repo)) with
        repo := finalState (A.issueTokens s.now newId user row.sessionId s.repo) } := by
  simp only [refreshes, hi, Option.bind_some, hstage, hnew, ↓reduceIte]

/-- The request `i` ends with the result after some of the steps. -/
def RefreshRun.EndsWith (A : AuthService τ) (s : RefreshRun τ) (i : Nat) (es : List (RefreshEvent τ))
    (result : EStateM.Result Exc AuthRepository (LoginResponse τ)) : Prop :=
  ∃ es' s', es' <+: es ∧ (refreshes A).run s es' = some s' ∧ s'.repo = finalState result ∧
    (s'.requests.get? i).map (·.stage) = some (.ofResult result)

section

variable {es : List (RefreshEvent τ)} {result : EStateM.Result Exc AuthRepository (LoginResponse τ)}
  {e : RefreshEvent τ} {s' : RefreshRun τ}

theorem endsWith_nil (hrepo : s.repo = finalState result)
    (hstage : (s.requests.get? i).map (·.stage) = some (.ofResult result)) : s.EndsWith A i es result :=
  ⟨[], s, List.nil_prefix, rfl, hrepo, hstage⟩

theorem endsWith_cons (h : (refreshes A).step s e = some s') (hs : s'.EndsWith A i es result) :
    s.EndsWith A i (e :: es) result := by
  obtain ⟨es', s'', hprefix, hrun, hend⟩ := hs
  exact ⟨e :: es', s'', (List.prefix_cons_inj e).2 hprefix, by rw [Machine.run_cons_some _ h, hrun], hend⟩

end

/-- `refresh` is the run of its steps. -/
theorem run_refresh (hi : s.requests.get? i = none) {newId : TokenId} (hnew : s.repo.getRefreshToken newId = none)
    (token : τ) :
    s.EndsWith A i (refreshEvents i token newId) (A.refresh s.now newId token s.repo) := by
  rw [A.refresh_eq]
  have hpresent : (refreshes A).step s (.present i token) = some (s.present A i token) := if_pos hi
  refine endsWith_cons hpresent ?_
  cases hid : A.presentedId s.now token with
  | error exc => exact endsWith_nil (by simp only [RefreshRun.present, hid]; rfl) (by
      simp only [RefreshRun.present, hid, Dict.get?_set_self]; rfl)
  | ok tokenId =>
    simp only [RefreshRun.present, hid]
    refine endsWith_cons (lookup_step (Dict.get?_set_self ..) rfl) ?_
    cases hrow : A.checkToken s.now token (s.repo.getRefreshToken tokenId) with
    | error exc => exact endsWith_nil rfl (by simp only [RefreshRun.reach, Dict.get?_set_self]; rfl)
    | ok row =>
      refine endsWith_cons (user_step (Dict.get?_set_self ..) rfl) ?_
      dsimp only [RefreshRun.reach]
      cases huser : AuthService.checkUser (s.repo.getUserById row.tenantId row.userId) with
      | error exc => exact endsWith_nil rfl (by rw [Dict.get?_set_self]; rfl)
      | ok user =>
        have hnew' := s.repo.getRefreshToken_revoke_none hnew tokenId
        refine endsWith_cons (revoke_step (Dict.get?_set_self ..) rfl) ?_
        refine endsWith_cons (store_step (Dict.get?_set_self ..) rfl hnew') (endsWith_nil rfl ?_)
        dsimp only [RefreshRun.reach]
        rw [Dict.get?_set_self]
        rfl

/-! ## Who holds a token -/

namespace RefreshRun

/-- This event looks a token up that another request has found valid and not
yet revoked. -/
def overlaps (k : TokenId) (s : RefreshRun τ) : RefreshEvent τ → Bool
  | .lookup i =>
    ((s.requests.get? i).any fun r => r.tokenId = k) &&
      s.requests.values.any fun r => r.tokenId = k && r.stage.pending
  | _ => false

/-- One request at most holds the token; the token of a holder is stored, and
revoked once it is spent. -/
structure Guarded (A : AuthService τ) (k : TokenId) (s : RefreshRun τ) : Prop where
  ids : ∀ i r, s.requests.get? i = some r → r.stage.holds = true ∨ r.stage = .decoded →
    A.tokenId r.token = some r.tokenId
  unique : ∀ i j r r', s.requests.get? i = some r → s.requests.get? j = some r' → r.tokenId = k → r'.tokenId = k →
    r.stage.holds = true → r'.stage.holds = true → i = j
  known : ∀ i r, s.requests.get? i = some r → r.tokenId = k → r.stage.holds = true →
    ∃ row, s.repo.getRefreshToken k = some row ∧ (r.stage.spent = true → row.revoked = true)

/-- Rows stay, and stay revoked. -/
def Grows (k : TokenId) (repo repo' : AuthRepository) : Prop :=
  ∀ row, repo.getRefreshToken k = some row →
    ∃ row', repo'.getRefreshToken k = some row' ∧ (row.revoked = true → row'.revoked = true)

variable {k : TokenId} {s' : RefreshRun τ} {stage : RefreshStage τ}

theorem Grows.refl (repo : AuthRepository) : Grows k repo repo := fun row h => ⟨row, h, id⟩

theorem Grows.revoke (repo : AuthRepository) (id : TokenId) : Grows k repo (repo.revokeRefreshToken id) := by
  intro row h
  rw [AuthRepository.getRefreshToken_revoke]
  split
  · rename_i hk
    exact ⟨{ row with revoked := true }, by rw [← hk, h, Option.map_some], fun _ => rfl⟩
  · exact ⟨row, h, fun hr => hr⟩

/-- Storing a new token. -/
theorem Grows.put {repo : AuthRepository} {row : RefreshToken} (h : repo.getRefreshToken row.tokenId = none) :
    Grows k repo (repo.putToken row) := by
  intro row' h'
  have hk : k ≠ row.tokenId := fun hk => by rw [hk, h] at h'; cases h'
  exact ⟨row', by rw [AuthRepository.getRefreshToken_putToken, if_neg hk, h'], id⟩

/-- A request moves on with the token it holds, or without one. -/
theorem Guarded.move (hg : s.Guarded A k) (hi : s.requests.get? i = some r)
    (hs : s'.requests = s.requests.set i { r with stage := stage }) (hrepo : Grows k s.repo s'.repo)
    (hhold : stage.holds = true → r.stage.holds = true) (hdecoded : stage ≠ .decoded)
    (hspent : r.tokenId = k → stage.spent = true → r.stage.spent = true ∨
      ∀ row, s'.repo.getRefreshToken k = some row → row.revoked = true) : s'.Guarded A k := by
  have hget : ∀ j, s'.requests.get? j = if j = i then some { r with stage := stage } else s.requests.get? j :=
    fun j => by rw [hs]; exact Dict.get?_set ..
  -- a holder in the new state was one before
  have hback : ∀ j r', s'.requests.get? j = some r' → r'.stage.holds = true →
      ∃ r₀, s.requests.get? j = some r₀ ∧ r₀.token = r'.token ∧ r₀.tokenId = r'.tokenId ∧ r₀.stage.holds = true := by
    intro j r' hj hh
    rw [hget] at hj
    split at hj
    · rename_i hji
      cases hj
      exact ⟨r, hji ▸ hi, rfl, rfl, hhold hh⟩
    · exact ⟨r', hj, rfl, rfl, hh⟩
  refine ⟨fun j r' hj hh => ?_, fun j l r₁ r₂ hj hl hk₁ hk₂ hh₁ hh₂ => ?_, fun j r' hj hk hh => ?_⟩
  · rcases hh with hh | hh
    · obtain ⟨r₀, h₀, htoken, hid, hh₀⟩ := hback j r' hj hh
      rw [← htoken, ← hid]; exact hg.ids j r₀ h₀ (.inl hh₀)
    · rw [hget] at hj
      split at hj
      · cases hj; exact absurd hh hdecoded
      · exact hg.ids j r' hj (.inr hh)
  · obtain ⟨r₁', h₁, -, hid₁, hh₁'⟩ := hback j r₁ hj hh₁
    obtain ⟨r₂', h₂, -, hid₂, hh₂'⟩ := hback l r₂ hl hh₂
    exact hg.unique j l r₁' r₂' h₁ h₂ (hid₁.trans hk₁) (hid₂.trans hk₂) hh₁' hh₂'
  · rw [hget] at hj
    split at hj
    · cases hj
      obtain ⟨row, hrow, hrev⟩ := hg.known i r hi hk (hhold hh)
      obtain ⟨row', hrow', hrev'⟩ := hrepo row hrow
      refine ⟨row', hrow', fun hsp => ?_⟩
      rcases hspent hk hsp with hsp | hall
      · exact hrev' (hrev hsp)
      · exact hall row' hrow'
    · obtain ⟨row, hrow, hrev⟩ := hg.known j r' hj hk hh
      obtain ⟨row', hrow', hrev'⟩ := hrepo row hrow
      exact ⟨row', hrow', fun hsp => hrev' (hrev hsp)⟩

/-- A request finds its token valid while nobody holds it. -/
theorem Guarded.hold (hg : s.Guarded A k) (hi : s.requests.get? i = some r) (hstage : r.stage = .decoded)
    {row : RefreshToken} (hrow : s.repo.getRefreshToken r.tokenId = some row)
    (hfree : r.tokenId = k → ∀ j r', s.requests.get? j = some r' → r'.tokenId = k → r'.stage.holds = false) :
    (s.reach i r (.checked row)).Guarded A k := by
  have hget : ∀ j, (s.reach i r (.checked row)).requests.get? j =
      if j = i then some { r with stage := .checked row } else s.requests.get? j := fun j => Dict.get?_set ..
  refine ⟨fun j r' hj hh => ?_, fun j l r₁ r₂ hj hl hk₁ hk₂ hh₁ hh₂ => ?_, fun j r' hj hk hh => ?_⟩
  · rw [hget] at hj
    split at hj
    · cases hj; exact hg.ids i r hi (.inr hstage)
    · exact hg.ids j r' hj hh
  · rw [hget] at hj hl
    split at hj <;> split at hl
    · rename_i hj' hl'; rw [hj', hl']
    · cases hj; rw [hfree hk₁ l r₂ hl hk₂] at hh₂; cases hh₂
    · cases hl; rw [hfree hk₂ j r₁ hj hk₁] at hh₁; cases hh₁
    · exact hg.unique j l r₁ r₂ hj hl hk₁ hk₂ hh₁ hh₂
  · rw [hget] at hj
    split at hj
    · cases hj; exact ⟨row, hk ▸ hrow, by rintro ⟨⟩⟩
    · exact hg.known j r' hj hk hh

theorem guarded_present (hg : s.Guarded A k) (i : Nat) (token : τ) : (s.present A i token).Guarded A k := by
  -- the new request holds nothing
  have hnew : ∃ r, (s.present A i token).requests = s.requests.set i r ∧ r.stage.holds = false ∧
      (r.stage = .decoded → A.tokenId r.token = some r.tokenId) ∧ (s.present A i token).repo = s.repo := by
    unfold present
    split
    · rename_i tokenId hid
      exact ⟨_, rfl, rfl, fun _ => A.tokenId_of_presentedId hid, rfl⟩
    · exact ⟨_, rfl, rfl, (fun h => by cases h), rfl⟩
  obtain ⟨r, hs, hh, hid, hrepo⟩ := hnew
  have hget : ∀ j, (s.present A i token).requests.get? j = if j = i then some r else s.requests.get? j :=
    fun j => by rw [hs]; exact Dict.get?_set ..
  have hold : ∀ j r', (s.present A i token).requests.get? j = some r' → r'.stage.holds = true →
      s.requests.get? j = some r' := fun j r' hj hh' => by
    rw [hget] at hj
    split at hj
    · cases hj; rw [hh] at hh'; cases hh'
    · exact hj
  refine ⟨fun j r' hj hh' => ?_, fun j l r₁ r₂ hj hl hk₁ hk₂ hh₁ hh₂ => ?_, fun j r' hj hk hh' => ?_⟩
  · rw [hget] at hj
    split at hj
    · cases hj
      exact hh'.elim (fun hh' => by rw [hh] at hh'; cases hh') hid
    · exact hg.ids j r' hj hh'
  · exact hg.unique j l r₁ r₂ (hold j r₁ hj hh₁) (hold l r₂ hl hh₂) hk₁ hk₂ hh₁ hh₂
  · rw [hrepo]; exact hg.known j r' (hold j r' hj hh') hk hh'

/-- Every step that does not overlap keeps the token guarded. -/
theorem guarded_keeps (A : AuthService τ) (k : TokenId) :
    (refreshes A).Keeps (fun s e => s.overlaps k e = false) (Guarded A k) := by
  intro s e s' hm h hg
  cases e with
  | tick d => rw [← Option.some.inj h]; exact ⟨hg.ids, hg.unique, hg.known⟩
  | present i token =>
    obtain ⟨-, h⟩ := Option.ite_none_right_eq_some.1 h
    rw [← Option.some.inj h]
    exact guarded_present hg i token
  | lookup i =>
    obtain ⟨r, hi, h⟩ := Option.bind_eq_some_iff.1 h
    split at h
    · rename_i hstage
      rw [← Option.some.inj h]
      cases hcheck : A.checkToken s.now r.token (s.repo.getRefreshToken r.tokenId) with
      | error exc =>
        exact hg.move hi rfl (.refl _) (by rintro ⟨⟩) (by rintro ⟨⟩) fun _ hsp => by cases hsp
      | ok row =>
        obtain ⟨hrow, hrevoked⟩ := A.checkToken_ok hcheck
        refine hg.hold hi hstage hrow fun hk j r' hj hk' => ?_
        -- another holder would be pending, or have revoked the token
        cases hpending : r'.stage.pending with
        | true =>
          have hany : s.requests.values.any (fun r => r.tokenId = k && r.stage.pending) = true :=
            List.any_eq_true.2 ⟨r', (Dict.mem_values _).2 ⟨j, hj⟩, by simp [hk', hpending]⟩
          simp [overlaps, hi, hk, hany] at hm
        | false =>
          cases hspent : r'.stage.spent with
          | false => rw [RefreshStage.holds, hpending, hspent]; rfl
          | true =>
            obtain ⟨row', hrow', hrev⟩ := hg.known j r' hj hk' (by rw [RefreshStage.holds, hspent, Bool.or_true])
            rw [← hk, hrow, Option.some.injEq] at hrow'
            rw [← hrow', hrevoked] at hrev
            exact absurd (hrev hspent) (by decide)
    · cases h
  | user i =>
    obtain ⟨r, hi, h⟩ := Option.bind_eq_some_iff.1 h
    split at h
    · rename_i row hstage
      rw [← Option.some.inj h]
      refine hg.move hi rfl (.refl _) (fun _ => by rw [hstage]; rfl) ?_ fun _ hsp => ?_
      · unfold RefreshStage.ofExcept; split <;> rintro ⟨⟩
      · unfold RefreshStage.ofExcept at hsp; split at hsp <;> cases hsp
    · cases h
  | revoke i =>
    obtain ⟨r, hi, h⟩ := Option.bind_eq_some_iff.1 h
    split at h
    · rename_i row user hstage
      rw [← Option.some.inj h]
      refine hg.move hi rfl (.revoke _ _) (fun _ => by rw [hstage]; rfl) (by rintro ⟨⟩) fun hk _ => .inr ?_
      intro row' hrow'
      simp only [AuthRepository.getRefreshToken_revoke, hk, ↓reduceIte] at hrow'
      obtain ⟨row₀, -, rfl⟩ := Option.map_eq_some_iff.1 hrow'
      rfl
    · cases h
  | store i newId =>
    obtain ⟨r, hi, h⟩ := Option.bind_eq_some_iff.1 h
    split at h
    · rename_i row user hstage
      obtain ⟨hfresh, h⟩ := Option.ite_none_right_eq_some.1 h
      rw [← Option.some.inj h, A.issueTokens_of_none (by exact hfresh)]
      exact hg.move hi rfl (.put hfresh) (fun _ => by rw [hstage]; rfl) (by rintro ⟨⟩)
        fun _ _ => .inl (by rw [hstage]; rfl)
    · cases h

/-- The request has exchanged the token for a new pair. -/
def Exchanged (s : RefreshRun τ) (i : Nat) (token : τ) : Prop :=
  ∃ r response, s.requests.get? i = some r ∧ r.token = token ∧ r.stage = .returned response

end RefreshRun

/-- In every run of refreshes, over any repository, in which no request looks
the token up while another one has found it valid and not yet revoked it: one
request at most exchanges the token. -/
theorem exchanged_once {A : AuthService τ} {s₀ s : RefreshRun τ} {es : List (RefreshEvent τ)}
    (h₀ : s₀.requests = .empty) (h : (refreshes A).run s₀ es = some s) {token : τ} {k : TokenId}
    (hk : A.tokenId token = some k) (hm : (refreshes A).Meets (fun s e => s.overlaps k e = false) s₀ es) {i j : Nat}
    (hi : s.Exchanged i token) (hj : s.Exchanged j token) : i = j := by
  have hinit : s₀.Guarded A k := by
    refine ⟨fun i r hi => ?_, fun i j r r' hi => ?_, fun i r hi => ?_⟩ <;> rw [h₀] at hi <;> cases hi
  have hg : s.Guarded A k := (refreshes A).run_inv (RefreshRun.guarded_keeps A k) hm h hinit
  obtain ⟨r, response, hr, htoken, hstage⟩ := hi
  obtain ⟨r', response', hr', htoken', hstage'⟩ := hj
  have hh : r.stage.holds = true := by rw [hstage]; rfl
  have hh' : r'.stage.holds = true := by rw [hstage']; rfl
  have hid := hg.ids i r hr (.inl hh)
  have hid' := hg.ids j r' hr' (.inl hh')
  rw [htoken, hk, Option.some.injEq] at hid
  rw [htoken', hk, Option.some.injEq] at hid'
  exact hg.unique i j r r' hr hr' hid.symm hid'.symm hh hh'

/-- Alice has logged in and holds one refresh token. -/
def loggedIn : RefreshRun TokenPayload where
  now := 0
  repo := finalState (AuthService.plain.issueTokens 0 "t1" alice "s1" ((AuthRepository.empty .database).putUser alice))

def aliceToken : TokenPayload := (AuthService.plain.newTokens 0 "t1" alice "s1").2.refreshToken

/-- Two requests with one token, the second a call behind the first. -/
def doubleRefresh : List (RefreshEvent TokenPayload) :=
  [.present 0 aliceToken, .present 1 aliceToken, .lookup 0, .lookup 1, .user 0, .user 1, .revoke 0, .revoke 1,
    .store 0 "t2", .store 1 "t3"]

/-- Both requests exchange the token. -/
theorem exchanged_twice :
    ∃ s, (refreshes .plain).run loggedIn doubleRefresh = some s ∧
      s.Exchanged 0 aliceToken ∧ s.Exchanged 1 aliceToken :=
  ⟨_, rfl, ⟨_, _, rfl, rfl, rfl⟩, ⟨_, _, rfl, rfl, rfl⟩⟩

/-- The second request begins while the first one is under way, and looks the
token up after its revocation. -/
def laterRefresh : List (RefreshEvent TokenPayload) :=
  [.present 0 aliceToken, .present 1 aliceToken, .lookup 0, .user 0, .tick 1, .revoke 0, .lookup 1, .store 0 "t2"]

/-- `exchanged_once` where the second request fails. -/
theorem exchanged_once_later :
    ∃ s, (refreshes .plain).run loggedIn laterRefresh = some s ∧ s.Exchanged 0 aliceToken ∧
      ∀ j, s.Exchanged j aliceToken → 0 = j := by
  have hrun : ∃ s, (refreshes .plain).run loggedIn laterRefresh = some s ∧ s.Exchanged 0 aliceToken :=
    ⟨_, rfl, _, _, rfl, rfl, rfl⟩
  obtain ⟨s, hs, hx⟩ := hrun
  exact ⟨s, hs, hx, fun j hj => exchanged_once (A := .plain) (k := "t1") rfl hs rfl (by decide) hx hj⟩

end Ochestrate
