import Ochestrate.Auth.RefreshRace

/-!
# A refresh that fails halfway

Any of the four repository calls of `refresh` may raise. The two reads leave the
tokens as they were. The other two are separate writes, and the first revokes
the presented token: once it has taken effect (`revoked`), an exception leaves
the client without a token that is accepted (`refresh_fault`).
-/

namespace Ochestrate

/-- The calls of the repository in `refresh`, in their order. -/
inductive RefreshCall | getRefreshToken | getUserById | revokeRefreshToken | storeRefreshToken
  deriving DecidableEq

namespace AuthService

variable {τ : Type} (A : AuthService τ)

/-- `refresh`, with a fault for each of its calls. -/
def refreshFaulty (faults : RefreshCall → Fault Exc) (now : Time) (newId : TokenId) (token : τ) :
    EStateM Exc AuthRepository (LoginResponse τ) := do
  let tokenId ← MonadExcept.ofExcept (A.presentedId now token)
  let found ← underFault (faults .getRefreshToken) (do return (← get).getRefreshToken tokenId)
  let row ← MonadExcept.ofExcept (A.checkToken now token found)
  let known ← underFault (faults .getUserById) (do return (← get).getUserById row.tenantId row.userId)
  let user ← MonadExcept.ofExcept (checkUser known)
  underFault (faults .revokeRefreshToken) (modify (·.revokeRefreshToken tokenId))
  underFault (faults .storeRefreshToken) (A.issueTokens now newId user row.sessionId)

theorem refreshFaulty_none (now : Time) (newId : TokenId) (token : τ) :
    A.refreshFaulty (fun _ => .none) now newId token = A.refresh now newId token := rfl

end AuthService

/-- The presented token is revoked when the call raises. -/
def RefreshCall.revoked (call : RefreshCall) (fault : Fault Exc) : Bool :=
  match call with
  | .getRefreshToken | .getUserById => false
  | .revokeRefreshToken => fault.takesEffect
  | .storeRefreshToken => true

/-- One call has a fault. -/
def onlyAt (call : RefreshCall) (fault : Fault Exc) : RefreshCall → Fault Exc := fun call' =>
  if call' = call then fault else .none

variable {τ : Type} {A : AuthService τ} {repo repo' : AuthRepository} {now : Time} {token : τ}

/-- The token passes the checks of `refresh`. -/
def Accepts (A : AuthService τ) (repo : AuthRepository) (now : Time) (token : τ) : Prop :=
  ∃ id row user, A.presentedId now token = .ok id ∧ A.checkToken now token (repo.getRefreshToken id) = .ok row ∧
    AuthService.checkUser (repo.getUserById row.tenantId row.userId) = .ok user

/-- These are the tokens for which `refresh` returns. -/
theorem refresh_returns_iff {newId : TokenId} (hnew : repo.getRefreshToken newId = none) :
    returned (A.refresh now newId token repo) = true ↔ Accepts A repo now token := by
  constructor
  · intro h
    cases hrefresh : A.refresh now newId token repo with
    | error exc repo' => rw [hrefresh] at h; cases h
    | ok response repo' =>
      obtain ⟨id, row, user, hid, hrow, huser, -⟩ := A.refresh_ok hrefresh
      exact ⟨id, row, user, hid, hrow, huser⟩
  · rintro ⟨id, row, user, hid, hrow, huser⟩
    have hnew' := repo.getRefreshToken_revoke_none hnew id
    rw [A.refresh_eq]
    simp only [hid, hrow, huser, A.issueTokens_of_none hnew', returned_ok]

/-- A token whose row is revoked is not accepted. -/
theorem not_accepts {id : TokenId} (hid : A.tokenId token = some id) {row : RefreshToken}
    (hrow : repo.getRefreshToken id = some row) (hrevoked : row.revoked = true) : ¬ Accepts A repo now token := by
  rintro ⟨id', row', user, hid', hrow', -⟩
  obtain rfl := Option.some.inj (hid.symm.trans (A.tokenId_of_presentedId hid'))
  obtain ⟨hstored, hlive⟩ := A.checkToken_ok hrow'
  obtain rfl := Option.some.inj (hrow.symm.trans hstored)
  rw [hrevoked] at hlive
  cases hlive

/-- Only the token's own row and the users matter. -/
theorem accepts_congr (husers : repo'.users = repo.users)
    (hrow : ∀ id, A.tokenId token = some id → repo'.getRefreshToken id = repo.getRefreshToken id) :
    Accepts A repo' now token ↔ Accepts A repo now token := by
  have huser : ∀ tenantId userId, repo'.getUserById tenantId userId = repo.getUserById tenantId userId := by
    intro tenantId userId
    rw [AuthRepository.getUserById, AuthRepository.getUserById, husers]
  constructor
  · rintro ⟨id, row, user, hid, hcheck, hknown⟩
    exact ⟨id, row, user, hid, hrow id (A.tokenId_of_presentedId hid) ▸ hcheck, huser _ _ ▸ hknown⟩
  · rintro ⟨id, row, user, hid, hcheck, hknown⟩
    exact ⟨id, row, user, hid, (hrow id (A.tokenId_of_presentedId hid)).symm ▸ hcheck, (huser _ _).symm ▸ hknown⟩

/-- A valid token's refresh under a fault: the call with the fault raises. -/
theorem refreshFaulty_raises {id newId : TokenId} {row : RefreshToken} {user : UserRecord}
    (hid : A.presentedId now token = .ok id) (hrow : A.checkToken now token (repo.getRefreshToken id) = .ok row)
    (huser : AuthService.checkUser (repo.getUserById row.tenantId row.userId) = .ok user)
    (hnew : repo.getRefreshToken newId = none) {fault : Fault Exc} (hraises : fault.raises = true)
    (call : RefreshCall) :
    ∃ exc, A.refreshFaulty (onlyAt call fault) now newId token repo = .error exc (match call with
      | .getRefreshToken | .getUserById => repo
      | .revokeRefreshToken => if fault.takesEffect then repo.revokeRefreshToken id else repo
      | .storeRefreshToken =>
        if fault.takesEffect then
          (repo.revokeRefreshToken id).putToken (A.newTokens now newId user row.sessionId).1
        else repo.revokeRefreshToken id) := by
  have hfound : (do return (← get).getRefreshToken id : EStateM Exc AuthRepository _) repo =
      .ok (repo.getRefreshToken id) repo := rfl
  have hknown : (do return (← get).getUserById row.tenantId row.userId : EStateM Exc AuthRepository _) repo =
      .ok (repo.getUserById row.tenantId row.userId) repo := rfl
  have hrevoke : (modify (·.revokeRefreshToken id) : EStateM Exc AuthRepository Unit) repo =
      .ok () (repo.revokeRefreshToken id) := rfl
  have hissue : A.issueTokens now newId user row.sessionId (repo.revokeRefreshToken id) = .ok _ _ :=
    A.issueTokens_of_none (repo.getRefreshToken_revoke_none hnew id)
  -- the calls before the one that raises
  have hquiet : ∀ {call' : RefreshCall}, call' ≠ call → ∀ {α : Type} {x : EStateM Exc AuthRepository α} {a : α}
      {s s' : AuthRepository}, x s = .ok a s' → underFault (onlyAt call fault call') x s = .ok a s' := by
    intro call' hne α x a s s' hx
    rw [onlyAt, if_neg hne, underFault_none, hx]
  have hself : ∀ {α : Type} (x : EStateM Exc AuthRepository α),
      underFault (onlyAt call fault call) x = underFault fault x := by
    intro α x
    rw [onlyAt, if_pos rfl]
  unfold AuthService.refreshFaulty
  rw [hid, ofExcept_ok_bind]
  cases call with
  | getRefreshToken =>
    rw [hself]
    obtain ⟨exc, hexc⟩ := underFault_raises hraises hfound
    rw [ite_self] at hexc
    exact ⟨exc, bind_error hexc _⟩
  | getUserById =>
    obtain ⟨exc, hexc⟩ := underFault_raises hraises hknown
    rw [ite_self] at hexc
    refine ⟨exc, ?_⟩
    rw [bind_ok (hquiet (by decide) hfound), hrow, ofExcept_ok_bind]
    exact bind_error hexc _
  | revokeRefreshToken =>
    obtain ⟨exc, hexc⟩ := underFault_raises hraises hrevoke
    refine ⟨exc, ?_⟩
    rw [bind_ok (hquiet (by decide) hfound), hrow, ofExcept_ok_bind, bind_ok (hquiet (by decide) hknown), huser,
      ofExcept_ok_bind]
    exact bind_error hexc _
  | storeRefreshToken =>
    obtain ⟨exc, hexc⟩ := underFault_raises hraises hissue
    refine ⟨exc, ?_⟩
    rw [bind_ok (hquiet (by decide) hfound), hrow, ofExcept_ok_bind, bind_ok (hquiet (by decide) hknown), huser,
      ofExcept_ok_bind, bind_ok (hquiet (by decide) hrevoke)]
    exact hexc

/-- A valid token's refresh in which one call raises: if the revocation has not
taken effect, the same tokens are accepted afterwards; if it has, the presented
token is not accepted any more, and of the others at most the one that was about
to be issued is affected. -/
theorem refresh_fault (A : AuthService τ) {repo : AuthRepository} {now : Time} {token : τ} {newId : TokenId}
    (hvalid : Accepts A repo now token) (hnew : repo.getRefreshToken newId = none) (call : RefreshCall)
    {fault : Fault Exc} (hraises : fault.raises = true) :
    let result := A.refreshFaulty (onlyAt call fault) now newId token repo
    returned result = false ∧
      (call.revoked fault = false → ∀ later token', Accepts A (finalState result) later token' ↔ Accepts A repo later token') ∧
      (call.revoked fault = true → (∀ later, ¬ Accepts A (finalState result) later token) ∧
        ∀ later token', A.tokenId token' ≠ A.tokenId token → A.tokenId token' ≠ some newId →
          (Accepts A (finalState result) later token' ↔ Accepts A repo later token')) := by
  obtain ⟨id, row, user, hid, hrow, huser⟩ := hvalid
  obtain ⟨exc, hexc⟩ := refreshFaulty_raises hid hrow huser hnew hraises call
  obtain ⟨hstored, -⟩ := A.checkToken_ok hrow
  have htoken := A.tokenId_of_presentedId hid
  have hrevoked : (repo.revokeRefreshToken id).getRefreshToken id = some { row with revoked := true } := by
    rw [AuthRepository.getRefreshToken_revoke, if_pos rfl, hstored, Option.map_some]
  have hothers : ∀ {id'}, id' ≠ id → (repo.revokeRefreshToken id).getRefreshToken id' = repo.getRefreshToken id' :=
    fun hne => by rw [AuthRepository.getRefreshToken_revoke, if_neg hne]
  have hrevokedCase : (∀ later, ¬ Accepts A (repo.revokeRefreshToken id) later token) ∧
      ∀ later token', A.tokenId token' ≠ A.tokenId token →
        (Accepts A (repo.revokeRefreshToken id) later token' ↔ Accepts A repo later token') :=
    ⟨fun later => not_accepts htoken hrevoked rfl, fun later token' hne =>
      accepts_congr (repo.users_revokeRefreshToken id) fun id' hid' =>
        hothers fun heq => hne (by rw [hid', htoken, heq])⟩
  dsimp only
  rw [hexc, finalState_error]
  refine ⟨rfl, fun hbefore => ?_, fun hafter => ?_⟩
  · cases call with
    | getRefreshToken | getUserById => exact fun later token' => Iff.rfl
    | revokeRefreshToken =>
      rw [show fault.takesEffect = false from hbefore]
      exact fun later token' => Iff.rfl
    | storeRefreshToken => cases hbefore
  · cases call with
    | getRefreshToken | getUserById => cases hafter
    | revokeRefreshToken =>
      rw [show fault.takesEffect = true from hafter]
      exact ⟨hrevokedCase.1, fun later token' hne _ => hrevokedCase.2 later token' hne⟩
    | storeRefreshToken =>
      dsimp only
      split
      · have hne : id ≠ (A.newTokens now newId user row.sessionId).1.tokenId := fun hne => by
          rw [show newId = id from hne.symm, hstored] at hnew
          cases hnew
        have hstays := ((repo.revokeRefreshToken id).getRefreshToken_putToken
          (A.newTokens now newId user row.sessionId).1 id).trans ((if_neg hne).trans hrevoked)
        refine ⟨fun later => not_accepts htoken hstays rfl, fun later token' hne' hnew' => ?_⟩
        rw [← hrevokedCase.2 later token' hne']
        refine accepts_congr rfl fun id' hid' => ?_
        have hid : id' ≠ (A.newTokens now newId user row.sessionId).1.tokenId := fun heq =>
          hnew' (hid'.trans (congrArg some heq))
        rw [AuthRepository.getRefreshToken_putToken, if_neg hid]
      · exact ⟨hrevokedCase.1, fun later token' hne _ => hrevokedCase.2 later token' hne⟩

/-- The repository goes down between the two writes of Alice's refresh. -/
def databaseDown : Fault Exc := .before ⟨.other, "database is down"⟩

theorem aliceToken_accepted : Accepts .plain loggedIn.repo 0 aliceToken := ⟨"t1", _, alice, rfl, rfl, rfl⟩

/-- `refresh_fault` there. -/
theorem refresh_fault_alice :
    let result := AuthService.plain.refreshFaulty (onlyAt .storeRefreshToken databaseDown) 0 "t2" aliceToken loggedIn.repo
    returned result = false ∧ ∀ later, ¬ Accepts .plain (finalState result) later aliceToken :=
  have hnew : loggedIn.repo.getRefreshToken "t2" = none := rfl
  have hraises : databaseDown.raises = true := rfl
  have h := refresh_fault .plain aliceToken_accepted hnew .storeRefreshToken hraises
  ⟨h.1, (h.2.2 rfl).1⟩

/-- Her token was accepted before, and is lost. -/
theorem session_lost :
    let result := AuthService.plain.refreshFaulty (onlyAt .storeRefreshToken databaseDown) 0 "t2" aliceToken loggedIn.repo
    Accepts .plain loggedIn.repo 0 aliceToken ∧ returned result = false ∧
      ¬ Accepts .plain (finalState result) 0 aliceToken := by
  have htoken : AuthService.plain.tokenId aliceToken = some "t1" := rfl
  exact ⟨aliceToken_accepted, rfl, not_accepts htoken rfl rfl⟩

end Ochestrate
