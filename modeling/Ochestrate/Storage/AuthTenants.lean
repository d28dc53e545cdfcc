import Ochestrate.Storage.AuthRepo

/-!
# The rows of one tenant

`ofTenant T` keeps the users and the tokens of the tenant `T`. What the
repository answers about `T` it answers from these rows alone, and a write for
`T` is a write to them. A program that `Touches` the rows of another tenant
leaves them as they are (`Touches.ofTenant`).
-/

namespace Ochestrate

namespace AuthRepository

/-- The repository with the rows of one tenant. -/
def ofTenant (tenantId : String) (repo : AuthRepository) : AuthRepository where
  mode := repo.mode
  users := repo.users.filter fun _ user => user.tenantId = tenantId
  tokens := repo.tokens.filter fun _ row => row.tenantId = tenantId
  users_keyed key user h := by
    rw [Dict.get?_filter] at h
    exact repo.users_keyed key user (Option.filter_eq_some_iff.1 h).1
  tokens_keyed id row h := by
    rw [Dict.get?_filter] at h
    exact repo.tokens_keyed id row (Option.filter_eq_some_iff.1 h).1

theorem ext_rows {repo repo' : AuthRepository} (hmode : repo.mode = repo'.mode) (husers : repo.users = repo'.users)
    (htokens : repo.tokens = repo'.tokens) : repo = repo' := by
  cases repo
  cases repo'
  cases hmode
  cases husers
  cases htokens
  rfl

variable (repo : AuthRepository) (tenantId : String)

theorem getUserByUsername_ofTenant (username : String) :
    (repo.ofTenant tenantId).getUserByUsername tenantId username = repo.getUserByUsername tenantId username := by
  refine repo.users.get?_filter_of_true fun user huser => ?_
  exact decide_eq_true (Prod.mk.inj (repo.users_keyed _ _ huser)).1

theorem getUserById_ofTenant (userId : String) :
    (repo.ofTenant tenantId).getUserById tenantId userId = repo.getUserById tenantId userId := by
  unfold getUserById ofTenant
  rw [Dict.values_filter, List.find?_filter]
  congr 1
  funext user
  by_cases ht : user.tenantId = tenantId <;> simp [ht]

theorem listUsers_ofTenant : (repo.ofTenant tenantId).listUsers tenantId = repo.listUsers tenantId := by
  unfold listUsers ofTenant
  rw [Dict.values_filter, List.filter_filter]
  simp only [Bool.and_self]

theorem getRefreshToken_ofTenant (id : TokenId) :
    (repo.ofTenant tenantId).getRefreshToken id = (repo.getRefreshToken id).filter fun row => row.tenantId = tenantId :=
  Dict.get?_filter ..

/-- Of a token that is not another tenant's. -/
theorem getRefreshToken_ofTenant_of_own {id : TokenId}
    (hown : ∀ row, repo.getRefreshToken id = some row → row.tenantId = tenantId) :
    (repo.ofTenant tenantId).getRefreshToken id = repo.getRefreshToken id :=
  repo.tokens.get?_filter_of_true fun row hrow => decide_eq_true (hown row hrow)

variable {tenantId} in
theorem ofTenant_putUser {user : UserRecord} (h : user.tenantId = tenantId) :
    (repo.putUser user).ofTenant tenantId = (repo.ofTenant tenantId).putUser user := by
  refine ext_rows rfl ?_ rfl
  refine repo.users.filter_set_of_true (p := fun _ user => user.tenantId = tenantId) (decide_eq_true h)
    fun user' huser' => ?_
  exact decide_eq_true ((Prod.mk.inj (repo.users_keyed _ _ huser')).1.trans h)

variable {tenantId} in
theorem ofTenant_putUser_ne {user : UserRecord} (h : user.tenantId ≠ tenantId) :
    (repo.putUser user).ofTenant tenantId = repo.ofTenant tenantId := by
  refine ext_rows rfl ?_ rfl
  refine repo.users.filter_set_of_false (p := fun _ user => user.tenantId = tenantId) (decide_eq_false h)
    fun user' huser' => ?_
  exact decide_eq_false ((Prod.mk.inj (repo.users_keyed _ _ huser')).1 ▸ h)

variable {tenantId} in
theorem ofTenant_putToken {row : RefreshToken} (h : row.tenantId = tenantId)
    (hown : ∀ row', repo.getRefreshToken row.tokenId = some row' → row'.tenantId = row.tenantId) :
    (repo.putToken row).ofTenant tenantId = (repo.ofTenant tenantId).putToken row := by
  refine ext_rows rfl rfl ?_
  refine repo.tokens.filter_set_of_true (p := fun _ row => row.tenantId = tenantId) (decide_eq_true h)
    fun row' hrow' => ?_
  exact decide_eq_true ((hown row' hrow').trans h)

variable {tenantId} in
theorem ofTenant_putToken_ne {row : RefreshToken} (h : row.tenantId ≠ tenantId)
    (hown : ∀ row', repo.getRefreshToken row.tokenId = some row' → row'.tenantId = row.tenantId) :
    (repo.putToken row).ofTenant tenantId = repo.ofTenant tenantId := by
  refine ext_rows rfl rfl ?_
  refine repo.tokens.filter_set_of_false (p := fun _ row => row.tenantId = tenantId) (decide_eq_false h)
    fun row' hrow' => ?_
  exact decide_eq_false ((hown row' hrow').symm ▸ h)

/-- An own token is revoked among the rows of its tenant. -/
theorem ofTenant_revoke {id : TokenId} (hown : ∀ row, repo.getRefreshToken id = some row → row.tenantId = tenantId) :
    (repo.revokeRefreshToken id).ofTenant tenantId = (repo.ofTenant tenantId).revokeRefreshToken id := by
  unfold revokeRefreshToken
  rw [repo.getRefreshToken_ofTenant_of_own tenantId hown]
  cases hrow : repo.getRefreshToken id with
  | none => rfl
  | some row =>
    refine repo.ofTenant_putToken (hown row hrow) fun row' hrow' => ?_
    have hkey : row.tokenId = id := repo.tokens_keyed id row hrow
    exact (hown row' (hkey ▸ hrow')).trans (hown row hrow).symm

end AuthRepository

open AuthRepository

/-- Rows of the tenant are written, each new or over a row of the tenant. -/
inductive Touches (tenantId : String) (repo : AuthRepository) : AuthRepository → Prop
  | refl : Touches tenantId repo repo
  | user {repo' : AuthRepository} {user : UserRecord} (h : Touches tenantId repo repo')
      (huser : user.tenantId = tenantId) : Touches tenantId repo (repo'.putUser user)
  | token {repo' : AuthRepository} {row : RefreshToken} (h : Touches tenantId repo repo')
      (hrow : row.tenantId = tenantId)
      (hown : ∀ row', repo'.getRefreshToken row.tokenId = some row' → row'.tenantId = row.tenantId) :
      Touches tenantId repo (repo'.putToken row)

namespace Touches

variable {tenantId : String} {repo repo' : AuthRepository}

theorem revoke (h : Touches tenantId repo repo') {id : TokenId}
    (hown : ∀ row, repo'.getRefreshToken id = some row → row.tenantId = tenantId) :
    Touches tenantId repo (repo'.revokeRefreshToken id) := by
  unfold revokeRefreshToken
  cases hrow : repo'.getRefreshToken id with
  | none => exact h
  | some row =>
    refine h.token (hown row hrow) fun row' hrow' => ?_
    have hkey : row.tokenId = id := repo'.tokens_keyed id row hrow
    exact (hown row' (hkey ▸ hrow')).trans (hown row hrow).symm

theorem trans {repo'' : AuthRepository} (h : Touches tenantId repo repo') (h' : Touches tenantId repo' repo'') :
    Touches tenantId repo repo'' := by
  induction h' with
  | refl => exact h
  | user _ huser ih => exact ih.user huser
  | token _ hrow hown ih => exact ih.token hrow hown

theorem mode (h : Touches tenantId repo repo') : repo'.mode = repo.mode := by
  induction h with
  | refl => rfl
  | user _ _ ih => exact ih
  | token _ _ _ ih => exact ih

/-- The rows of another tenant stay as they are. -/
theorem ofTenant (h : Touches tenantId repo repo') {other : String} (hne : tenantId ≠ other) :
    repo'.ofTenant other = repo.ofTenant other := by
  induction h with
  | refl => rfl
  | user _ huser ih => exact (ofTenant_putUser_ne _ (huser ▸ hne)).trans ih
  | token _ hrow hown ih => exact (ofTenant_putToken_ne _ (hrow ▸ hne) hown).trans ih

/-- No token is deleted or goes to another tenant. -/
theorem kept (h : Touches tenantId repo repo') {id : TokenId} {row : RefreshToken}
    (hrow : repo.getRefreshToken id = some row) :
    ∃ row', repo'.getRefreshToken id = some row' ∧ row'.tenantId = row.tenantId := by
  induction h with
  | refl => exact ⟨row, hrow, rfl⟩
  | user _ _ ih => exact ih
  | @token repo' new _ _ hown ih =>
    obtain ⟨row', hrow', htenant⟩ := ih
    rw [getRefreshToken_putToken]
    by_cases hid : id = new.tokenId
    · exact ⟨new, if_pos hid, (hown row' (hid ▸ hrow')).symm.trans htenant⟩
    · exact ⟨row', (if_neg hid).trans hrow', htenant⟩

end Touches

end Ochestrate
