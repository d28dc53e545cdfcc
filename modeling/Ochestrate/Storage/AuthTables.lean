import Ochestrate.Framework.Machine
import Ochestrate.Storage.AuthRepo

/-!
# The tables of the auth repository

`app/storage/models.py`: in database mode the users and the refresh tokens are
rows, with the unique constraints of the models. `AuthTables` does each
operation of `AuthRepository` on the rows, the way its statement does.

`perform_refines` connects the two: on rows that are the values of the
dictionaries, the tables answer what `AuthRepository` does in database mode.
`modes_agree_iff` compares the tables with the in-memory mode.
-/

namespace Ochestrate

/-- A unique column stays so when a row with a new value is added. -/
theorem nodup_map_concat {α β : Type} {f : α → β} {rows : List α} {row : α} (h : (rows.map f).Nodup)
    (hnew : f row ∉ rows.map f) : ((rows ++ [row]).map f).Nodup := by
  rw [List.map_append]
  refine List.nodup_append.2 ⟨h, List.nodup_singleton _, fun a ha b hb hab => hnew ?_⟩
  have hb' : b = f row := List.mem_singleton.1 hb
  rw [← hb', ← hab]
  exact ha

/-- The rows of `user_credentials` and `refresh_tokens`, in the order of their
ids. The engine is idealised: a `DateTime` column keeps the time that it is given,
without rounding, and texts are equal if all their characters are. -/
structure AuthTables where
  users : List UserRecord
  tokens : List RefreshToken
  uk_user_credentials : (users.map fun row => (row.tenantId, row.username)).Nodup
  uk_user_credentials_user_id : (users.map fun row => (row.tenantId, row.userId)).Nodup
  uk_token_id : (tokens.map (·.tokenId)).Nodup

namespace AuthTables

def empty : AuthTables := ⟨[], [], List.nodup_nil, List.nodup_nil, List.nodup_nil⟩

/-- `INSERT INTO user_credentials` -/
def insertUser (tables : AuthTables) (row : UserRecord) : Except Exc AuthTables :=
  if h : (row.tenantId, row.username) ∈ tables.users.map (fun row => (row.tenantId, row.username)) ∨
      (row.tenantId, row.userId) ∈ tables.users.map (fun row => (row.tenantId, row.userId)) then
    .error ⟨.integrityError, "UNIQUE constraint failed"⟩
  else .ok {
    users := tables.users ++ [row]
    tokens := tables.tokens
    uk_user_credentials := nodup_map_concat tables.uk_user_credentials fun hrow => h (.inl hrow)
    uk_user_credentials_user_id := nodup_map_concat tables.uk_user_credentials_user_id fun hrow => h (.inr hrow)
    uk_token_id := tables.uk_token_id }

/-- `UPDATE user_credentials` of the three fields of a row. -/
def updateRow (tables : AuthTables) (row : UserRecord) (next : UserFields) : AuthTables where
  users := tables.users.replace row (row.withFields next)
  tokens := tables.tokens
  uk_user_credentials := by
    rw [Dict.map_replace (by rfl)]
    exact tables.uk_user_credentials
  uk_user_credentials_user_id := by
    rw [Dict.map_replace (by rfl)]
    exact tables.uk_user_credentials_user_id
  uk_token_id := tables.uk_token_id

/-- `INSERT INTO refresh_tokens` -/
def insertToken (tables : AuthTables) (row : RefreshToken) : Except Exc AuthTables :=
  if h : row.tokenId ∈ tables.tokens.map (·.tokenId) then .error ⟨.integrityError, "UNIQUE constraint failed"⟩
  else .ok {
    users := tables.users
    tokens := tables.tokens ++ [row]
    uk_user_credentials := tables.uk_user_credentials
    uk_user_credentials_user_id := tables.uk_user_credentials_user_id
    uk_token_id := nodup_map_concat tables.uk_token_id h }

/-- `UPDATE refresh_tokens SET revoked` of a row. -/
def revokeRow (tables : AuthTables) (row : RefreshToken) : AuthTables where
  users := tables.users
  tokens := tables.tokens.replace row { row with revoked := true }
  uk_user_credentials := tables.uk_user_credentials
  uk_user_credentials_user_id := tables.uk_user_credentials_user_id
  uk_token_id := by
    rw [Dict.map_replace (by rfl)]
    exact tables.uk_token_id

/-! ## The operations in database mode -/

/-- `create_user`; `created_at` is the server's `current_timestamp`. -/
def createUser (serverNow : Time) (userId tenantId username passwordHash role status : String) :
    EStateM Exc AuthTables UserRecord := fun tables =>
  let row := ⟨tenantId, userId, username, role, status, passwordHash, serverNow⟩
  match tables.insertUser row with
  | .ok tables' => .ok row tables'
  | .error exc => .error exc tables

/-- `get_user_by_username`. -/
def getUserByUsername (tables : AuthTables) (tenantId username : String) : Option UserRecord :=
  tables.users.find? fun row => row.tenantId = tenantId && row.username = username

/-- `get_user_by_id`. -/
def getUserById (tables : AuthTables) (tenantId userId : String) : Option UserRecord :=
  tables.users.find? fun row => row.tenantId = tenantId && row.userId = userId

/-- `list_users`, the latest first. -/
def listUsers (tables : AuthTables) (tenantId : String) : List UserRecord :=
  (tables.users.filter fun row => row.tenantId = tenantId).mergeSort fun row row' => row'.createdAt ≤ row.createdAt

/-- `update_user`: one transaction reads the user, a second one finds the row
again and writes it. -/
def updateUser (tenantId userId : String) (update : UserUpdate) : EStateM Exc AuthTables (Option UserRecord) :=
  fun tables =>
    match tables.getUserById tenantId userId with
    | none => .ok none tables
    | some current =>
      let next := update.next current.fields
      match tables.getUserById tenantId userId with
      | none => .ok none tables
      | some row => .ok (some (row.withFields next)) (tables.updateRow row next)

/-- `store_refresh_token`. -/
def storeRefreshToken (row : RefreshToken) : EStateM Exc AuthTables Unit := fun tables =>
  match tables.insertToken row with
  | .ok tables' => .ok () tables'
  | .error exc => .error exc tables

/-- `get_refresh_token`. -/
def getRefreshToken (tables : AuthTables) (id : TokenId) : Option RefreshToken :=
  tables.tokens.find? fun row => row.tokenId = id

/-- `revoke_refresh_token`. -/
def revokeRefreshToken (tables : AuthTables) (id : TokenId) : AuthTables :=
  match tables.getRefreshToken id with
  | none => tables
  | some row => tables.revokeRow row

/-- `cleanup_expired_refresh_tokens`: `DELETE FROM refresh_tokens` of the rows
that are expired. -/
def cleanupExpiredRefreshTokens (now : Time) (tables : AuthTables) : AuthTables where
  users := tables.users
  tokens := tables.tokens.filter fun row => !decide (row.expiresAt ≤ now)
  uk_user_credentials := tables.uk_user_credentials
  uk_user_credentials_user_id := tables.uk_user_credentials_user_id
  uk_token_id := tables.uk_token_id.sublist (List.filter_sublist.map _)

end AuthTables

/-! ## One operation in either mode -/

/-- The operations, with the ids that they draw. -/
inductive AuthOp
  | createUser (userId tenantId username passwordHash role status : String)
  | getUserByUsername (tenantId username : String)
  | getUserById (tenantId userId : String)
  | listUsers (tenantId : String)
  | updateUser (tenantId userId : String) (update : UserUpdate)
  | storeRefreshToken (tokenId tenantId userId sessionId refreshTokenHash : String) (expiresAt : Time)
  | getRefreshToken (id : TokenId)
  | revokeRefreshToken (id : TokenId)
  | cleanupExpiredRefreshTokens

/-- An operation, the time, and the `current_timestamp` of the server. -/
structure AuthOpEvent where
  op : AuthOp
  now : Time
  serverNow : Time

inductive AuthOpAnswer
  | user (record : UserRecord)
  | found (record : Option UserRecord)
  | users (records : List UserRecord)
  | token (row : Option RefreshToken)
  | done

/-- The result with the answer in another form. -/
def mapResult {ε σ α β : Type} (f : α → β) : EStateM.Result ε σ α → EStateM.Result ε σ β
  | .ok a s => .ok (f a) s
  | .error e s => .error e s

def AuthRepository.perform (repo : AuthRepository) (e : AuthOpEvent) : EStateM.Result Exc AuthRepository AuthOpAnswer :=
  match e.op with
  | .createUser userId tenantId username passwordHash role status =>
    mapResult .user (createUser e.now e.serverNow userId tenantId username passwordHash role status repo)
  | .getUserByUsername tenantId username => .ok (.found (repo.getUserByUsername tenantId username)) repo
  | .getUserById tenantId userId => .ok (.found (repo.getUserById tenantId userId)) repo
  | .listUsers tenantId => .ok (.users (repo.listUsers tenantId)) repo
  | .updateUser tenantId userId update => mapResult .found (updateUser tenantId userId update repo)
  | .storeRefreshToken tokenId tenantId userId sessionId refreshTokenHash expiresAt =>
    match repo.storeRefreshToken { tokenId, tenantId, userId, sessionId, refreshTokenHash, expiresAt } with
    | .ok repo' => .ok .done repo'
    | .error exc => .error exc repo
  | .getRefreshToken id => .ok (.token (repo.getRefreshToken id)) repo
  | .revokeRefreshToken id => .ok .done (repo.revokeRefreshToken id)
  | .cleanupExpiredRefreshTokens => .ok .done (cleanupExpiredRefreshTokens e.now repo)

def AuthTables.perform (tables : AuthTables) (e : AuthOpEvent) : EStateM.Result Exc AuthTables AuthOpAnswer :=
  match e.op with
  | .createUser userId tenantId username passwordHash role status =>
    mapResult .user (createUser e.serverNow userId tenantId username passwordHash role status tables)
  | .getUserByUsername tenantId username => .ok (.found (tables.getUserByUsername tenantId username)) tables
  | .getUserById tenantId userId => .ok (.found (tables.getUserById tenantId userId)) tables
  | .listUsers tenantId => .ok (.users (tables.listUsers tenantId)) tables
  | .updateUser tenantId userId update => mapResult .found (updateUser tenantId userId update tables)
  | .storeRefreshToken tokenId tenantId userId sessionId refreshTokenHash expiresAt =>
    mapResult (fun _ => .done)
      (storeRefreshToken { tokenId, tenantId, userId, sessionId, refreshTokenHash, expiresAt } tables)
  | .getRefreshToken id => .ok (.token (tables.getRefreshToken id)) tables
  | .revokeRefreshToken id => .ok .done (tables.revokeRefreshToken id)
  | .cleanupExpiredRefreshTokens => .ok .done (cleanupExpiredRefreshTokens e.now tables)

/-- The same answer, a list of users up to its order. -/
inductive SameAnswer : AuthOpAnswer → AuthOpAnswer → Prop
  | refl (answer : AuthOpAnswer) : SameAnswer answer answer
  | users {records records' : List UserRecord} (h : records.Perm records') : SameAnswer (.users records) (.users records')

/-- Both return the same answer, or both raise. -/
def Agree {σ τ : Type} : EStateM.Result Exc σ AuthOpAnswer → EStateM.Result Exc τ AuthOpAnswer → Prop
  | .ok answer _, .ok answer' _ => SameAnswer answer answer'
  | .error .., .error .. => True
  | _, _ => False

/-! ## The tables refine the dictionaries -/

/-- The rows are the values of the dictionaries. -/
structure Holds (repo : AuthRepository) (tables : AuthTables) : Prop where
  users : tables.users = repo.users.values
  tokens : tables.tokens = repo.tokens.values

namespace Holds

variable {repo : AuthRepository} {tables : AuthTables}

theorem getUserByUsername (h : Holds repo tables) (tenantId username : String) :
    tables.getUserByUsername tenantId username = repo.getUserByUsername tenantId username := by
  rw [AuthRepository.getUserByUsername, ← repo.users.find?_values repo.users_keyed (tenantId, username), ← h.users]
  exact congrArg (tables.users.find? ·) (funext fun row => by simp)

theorem getUserById (h : Holds repo tables) (tenantId userId : String) :
    tables.getUserById tenantId userId = repo.getUserById tenantId userId := by
  rw [AuthTables.getUserById, AuthRepository.getUserById, h.users]

theorem getRefreshToken (h : Holds repo tables) (id : TokenId) :
    tables.getRefreshToken id = repo.getRefreshToken id := by
  rw [AuthRepository.getRefreshToken, ← repo.tokens.find?_values repo.tokens_keyed id, ← h.tokens]
  rfl

/-- The constraints of `user_credentials` reject the user. -/
theorem taken_iff (h : Holds repo tables) (row : UserRecord) :
    ((row.tenantId, row.username) ∈ tables.users.map (fun row => (row.tenantId, row.username)) ∨
      (row.tenantId, row.userId) ∈ tables.users.map (fun row => (row.tenantId, row.userId))) ↔
    ((repo.getUserByUsername row.tenantId row.username).isSome || (repo.getUserById row.tenantId row.userId).isSome) =
      true := by
  rw [← h.getUserByUsername, ← h.getUserById, Bool.or_eq_true, AuthTables.getUserByUsername, AuthTables.getUserById,
    List.find?_isSome, List.find?_isSome]
  simp [List.mem_map]

theorem putUser (h : Holds repo tables) {row : UserRecord} (hnew : repo.getUserByUsername row.tenantId row.username = none)
    {tables' : AuthTables} (hinsert : tables.insertUser row = .ok tables') : Holds (repo.putUser row) tables' := by
  unfold AuthTables.insertUser at hinsert
  split at hinsert
  · cases hinsert
  · rw [← Except.ok.inj hinsert]
    exact ⟨(congrArg (· ++ [row]) h.users).trans (repo.users.values_set_of_none row hnew).symm, h.tokens⟩

theorem withFields (h : Holds repo tables) {tenantId userId : String} {row : UserRecord}
    (hrow : repo.getUserById tenantId userId = some row) (next : UserFields) :
    Holds (repo.putUser (row.withFields next)) (tables.updateRow row next) := by
  obtain ⟨key, hkey⟩ := (Dict.mem_values _).1 (AuthRepository.getUserById_some hrow).1
  obtain rfl := repo.users_keyed key row hkey
  have hset := repo.users.values_set_of_some (row.withFields next) hkey fun key hkey =>
    (repo.users_keyed key row hkey).symm
  exact ⟨(congrArg (·.replace row (row.withFields next)) h.users).trans hset.symm, h.tokens⟩

theorem putToken (h : Holds repo tables) {row : RefreshToken} (hnew : repo.getRefreshToken row.tokenId = none)
    {tables' : AuthTables} (hinsert : tables.insertToken row = .ok tables') : Holds (repo.putToken row) tables' := by
  unfold AuthTables.insertToken at hinsert
  split at hinsert
  · cases hinsert
  · rw [← Except.ok.inj hinsert]
    exact ⟨h.users, (congrArg (· ++ [row]) h.tokens).trans (repo.tokens.values_set_of_none row hnew).symm⟩

theorem revoke (h : Holds repo tables) (id : TokenId) :
    Holds (repo.revokeRefreshToken id) (tables.revokeRefreshToken id) := by
  unfold AuthTables.revokeRefreshToken AuthRepository.revokeRefreshToken
  rw [h.getRefreshToken]
  cases hrow : repo.getRefreshToken id with
  | none => exact h
  | some row =>
    obtain rfl := repo.tokens_keyed id row hrow
    refine ⟨h.users, ?_⟩
    change tables.tokens.replace row _ = _
    rw [h.tokens]
    exact (repo.tokens.values_set_of_some _ hrow fun id hid => (repo.tokens_keyed id row hid).symm).symm

theorem cleanup (h : Holds repo tables) (now : Time) :
    Holds (AuthRepository.cleanupExpiredRefreshTokens now repo) (AuthTables.cleanupExpiredRefreshTokens now tables) := by
  refine ⟨h.users, ?_⟩
  change tables.tokens.filter _ = _
  rw [h.tokens]
  exact (repo.tokens.values_filter _).symm

theorem listUsers (h : Holds repo tables) (tenantId : String) :
    (repo.listUsers tenantId).Perm (tables.listUsers tenantId) := by
  rw [AuthTables.listUsers, AuthRepository.listUsers, h.users]
  exact (List.mergeSort_perm ..).symm

end Holds

/-- Both return the same answer or raise, over the same rows. -/
inductive Matches : EStateM.Result Exc AuthRepository AuthOpAnswer → EStateM.Result Exc AuthTables AuthOpAnswer → Prop
  | ok {answer answer' : AuthOpAnswer} {repo : AuthRepository} {tables : AuthTables}
      (ha : SameAnswer answer answer') (h : Holds repo tables) : Matches (.ok answer repo) (.ok answer' tables)
  | error {exc : Exc} {repo : AuthRepository} {tables : AuthTables} (h : Holds repo tables) :
      Matches (.error exc repo) (.error exc tables)

theorem Matches.agree {r : EStateM.Result Exc AuthRepository AuthOpAnswer}
    {r' : EStateM.Result Exc AuthTables AuthOpAnswer} (h : Matches r r') :
    Agree r r' ∧ Holds (finalState r) (finalState r') := by
  cases h with
  | ok ha h => exact ⟨ha, h⟩
  | error h => exact ⟨trivial, h⟩

/-- The operation may insert a row. -/
def AuthOp.inserts : AuthOp → Bool
  | createUser .. | storeRefreshToken .. => true
  | _ => false

variable {repo : AuthRepository} {tables : AuthTables}

/-- All other operations do the same in both modes. -/
theorem perform_matches (h : Holds repo tables) {e : AuthOpEvent} (he : e.op.inserts = false) :
    Matches (repo.perform e) (tables.perform e) := by
  obtain ⟨op, now, serverNow⟩ := e
  cases op with
  | createUser | storeRefreshToken => cases he
  | getUserByUsername tenantId username =>
    exact .ok (h.getUserByUsername tenantId username ▸ .refl _) h
  | getUserById tenantId userId => exact .ok (h.getUserById tenantId userId ▸ .refl _) h
  | listUsers tenantId => exact .ok (.users (h.listUsers tenantId)) h
  | updateUser tenantId userId update =>
    have hrepo : AuthRepository.updateUser tenantId userId update repo =
        match repo.getUserById tenantId userId with
        | none => .ok none repo
        | some current => AuthRepository.writeUser tenantId userId (update.next current.fields) repo := by
      unfold AuthRepository.updateUser
      rw [get_bind]
      cases repo.getUserById tenantId userId <;> rfl
    simp only [AuthRepository.perform, AuthTables.perform, hrepo, AuthTables.updateUser, h.getUserById]
    cases hrow : repo.getUserById tenantId userId with
    | none => exact .ok (.refl _) h
    | some row =>
      simp only [AuthRepository.writeUser, hrow]
      exact .ok (.refl _) (h.withFields hrow _)
  | getRefreshToken id => exact .ok (h.getRefreshToken id ▸ .refl _) h
  | revokeRefreshToken id => exact .ok (.refl _) (h.revoke id)
  | cleanupExpiredRefreshTokens => exact .ok (.refl _) (h.cleanup now)

/-- The server rejects a user whose name or id is taken, and stores any other. -/
theorem insertUser_cases (h : Holds repo tables) (row : UserRecord) :
    (((repo.getUserByUsername row.tenantId row.username).isSome || (repo.getUserById row.tenantId row.userId).isSome) =
        true ∧ tables.insertUser row = .error ⟨.integrityError, "UNIQUE constraint failed"⟩) ∨
      (repo.getUserByUsername row.tenantId row.username = none ∧ repo.getUserById row.tenantId row.userId = none ∧
        ∃ tables', tables.insertUser row = .ok tables' ∧ Holds (repo.putUser row) tables') := by
  by_cases htaken : (row.tenantId, row.username) ∈ tables.users.map (fun row => (row.tenantId, row.username)) ∨
      (row.tenantId, row.userId) ∈ tables.users.map (fun row => (row.tenantId, row.userId))
  · exact .inl ⟨(h.taken_iff row).1 htaken, dif_pos htaken⟩
  · have hfree := mt (h.taken_iff row).2 htaken
    simp only [Bool.or_eq_true, not_or, Option.not_isSome_iff_eq_none] at hfree
    have hinsert : ∃ tables', tables.insertUser row = .ok tables' := ⟨_, dif_neg htaken⟩
    obtain ⟨tables', hinsert⟩ := hinsert
    exact .inr ⟨hfree.1, hfree.2, tables', hinsert, h.putUser hfree.1 hinsert⟩

theorem insertToken_cases (h : Holds repo tables) (row : RefreshToken) :
    ((repo.getRefreshToken row.tokenId).isSome = true ∧
        tables.insertToken row = .error ⟨.integrityError, "UNIQUE constraint failed"⟩) ∨
      (repo.getRefreshToken row.tokenId = none ∧
        ∃ tables', tables.insertToken row = .ok tables' ∧ Holds (repo.putToken row) tables') := by
  have htaken_iff : row.tokenId ∈ tables.tokens.map (·.tokenId) ↔ (repo.getRefreshToken row.tokenId).isSome = true := by
    rw [← h.getRefreshToken, AuthTables.getRefreshToken, List.find?_isSome]
    simp [List.mem_map]
  by_cases htaken : row.tokenId ∈ tables.tokens.map (·.tokenId)
  · exact .inl ⟨htaken_iff.1 htaken, dif_pos htaken⟩
  · have hfree := Option.not_isSome_iff_eq_none.1 (mt htaken_iff.2 htaken)
    have hinsert : ∃ tables', tables.insertToken row = .ok tables' := ⟨_, dif_neg htaken⟩
    obtain ⟨tables', hinsert⟩ := hinsert
    exact .inr ⟨hfree, tables', hinsert, h.putToken hfree hinsert⟩

/-- In database mode `AuthRepository` does what the tables do. -/
theorem perform_refines (hmode : repo.mode = .database) (h : Holds repo tables) (e : AuthOpEvent) :
    Matches (repo.perform e) (tables.perform e) := by
  cases hop : e.op.inserts with
  | false => exact perform_matches h hop
  | true =>
    obtain ⟨op, now, serverNow⟩ := e
    cases op with
    | createUser userId tenantId username passwordHash role status =>
      let row : UserRecord := ⟨tenantId, userId, username, role, status, passwordHash, serverNow⟩
      simp only [AuthRepository.perform, AuthTables.perform, AuthRepository.createUser, AuthTables.createUser, hmode]
      rcases insertUser_cases h row with ⟨htaken, hinsert⟩ | ⟨hname, hid, tables', hinsert, h'⟩
      · rw [hinsert, if_pos (show _ = true from htaken)]
        exact .error h
      · rw [hinsert, show repo.getUserByUsername tenantId username = none from hname,
          show repo.getUserById tenantId userId = none from hid]
        exact .ok (.refl _) h'
    | storeRefreshToken tokenId tenantId userId sessionId refreshTokenHash expiresAt =>
      let row : RefreshToken := { tokenId, tenantId, userId, sessionId, refreshTokenHash, expiresAt }
      simp only [AuthRepository.perform, AuthTables.perform, AuthRepository.storeRefreshToken,
        AuthTables.storeRefreshToken, hmode]
      rcases insertToken_cases h row with ⟨htaken, hinsert⟩ | ⟨hnew, tables', hinsert, h'⟩
      · rw [hinsert, if_pos (show _ = true from htaken)]
        exact .error h
      · rw [hinsert, show repo.getRefreshToken tokenId = none from hnew]
        exact .ok (.refl _) h'
    | getUserByUsername | getUserById | listUsers | updateUser | getRefreshToken | revokeRefreshToken
    | cleanupExpiredRefreshTokens => cases hop

/-! ## The in-memory mode against the tables -/

/-- What is inserted has a name and ids of its own, and the clock of the server
shows the time. -/
def Distinct (repo : AuthRepository) (e : AuthOpEvent) : Prop :=
  match e.op with
  | .createUser userId tenantId username _ _ _ =>
    repo.getUserByUsername tenantId username = none ∧ repo.getUserById tenantId userId = none ∧ e.serverNow = e.now
  | .storeRefreshToken tokenId _ _ _ _ _ => repo.getRefreshToken tokenId = none
  | _ => True

/-- An operation gives the same in both modes exactly if what it inserts is
distinct, and then they stay in step. -/
theorem perform_agrees (hmode : repo.mode = .memory) (h : Holds repo tables) (e : AuthOpEvent) :
    (Agree (repo.perform e) (tables.perform e) ↔ Distinct repo e) ∧
      (Distinct repo e → Holds (finalState (repo.perform e)) (finalState (tables.perform e))) := by
  cases hop : e.op.inserts with
  | false =>
    obtain ⟨hagree, h'⟩ := (perform_matches h hop).agree
    refine ⟨iff_of_true hagree ?_, fun _ => h'⟩
    obtain ⟨op, now, serverNow⟩ := e
    cases op <;> first | exact trivial | cases hop
  | true =>
    obtain ⟨op, now, serverNow⟩ := e
    cases op with
    | createUser userId tenantId username passwordHash role status =>
      let row : UserRecord := ⟨tenantId, userId, username, role, status, passwordHash, serverNow⟩
      simp only [AuthRepository.perform, AuthTables.perform, AuthRepository.createUser, AuthTables.createUser, hmode,
        Distinct]
      rcases insertUser_cases h row with ⟨htaken, hinsert⟩ | ⟨hname, hid, tables', hinsert, h'⟩
      · rw [hinsert]
        have hnot : ¬ (repo.getUserByUsername tenantId username = none ∧ repo.getUserById tenantId userId = none ∧
            serverNow = now) := by
          rintro ⟨hname, hid, -⟩
          rw [show repo.getUserByUsername row.tenantId row.username = none from hname,
            show repo.getUserById row.tenantId row.userId = none from hid] at htaken
          cases htaken
        exact ⟨iff_of_false (by rintro ⟨⟩) hnot, fun hd => absurd hd hnot⟩
      · rw [hinsert]
        refine ⟨⟨fun hagree => ?_, ?_⟩, ?_⟩
        · cases hagree
          exact ⟨hname, hid, rfl⟩
        · rintro ⟨-, -, rfl⟩
          exact .refl _
        · rintro ⟨-, -, rfl⟩
          exact h'
    | storeRefreshToken tokenId tenantId userId sessionId refreshTokenHash expiresAt =>
      let row : RefreshToken := { tokenId, tenantId, userId, sessionId, refreshTokenHash, expiresAt }
      simp only [AuthRepository.perform, AuthTables.perform, AuthRepository.storeRefreshToken,
        AuthTables.storeRefreshToken, hmode, Distinct]
      rcases insertToken_cases h row with ⟨htaken, hinsert⟩ | ⟨hnew, tables', hinsert, h'⟩
      · rw [hinsert]
        have hnot : ¬ repo.getRefreshToken tokenId = none := by
          intro hnone
          rw [show repo.getRefreshToken row.tokenId = none from hnone] at htaken
          cases htaken
        exact ⟨iff_of_false (by rintro ⟨⟩) hnot, fun hd => absurd hd hnot⟩
      · rw [hinsert]
        exact ⟨iff_of_true (.refl _) hnew, fun _ => h'⟩
    | getUserByUsername | getUserById | listUsers | updateUser | getRefreshToken | revokeRefreshToken
    | cleanupExpiredRefreshTokens => cases hop

theorem perform_mode (hmode : repo.mode = .memory) (e : AuthOpEvent) : (finalState (repo.perform e)).mode = .memory := by
  obtain ⟨op, now, serverNow⟩ := e
  cases op with
  | createUser userId tenantId username passwordHash role status =>
    simp only [AuthRepository.perform, AuthRepository.createUser, hmode]
    exact hmode
  | updateUser tenantId userId update =>
    simp only [AuthRepository.perform, AuthRepository.updateUser, get_bind]
    cases hrow : repo.getUserById tenantId userId with
    | none => exact hmode
    | some row =>
      simp only [AuthRepository.writeUser, hrow]
      exact hmode
  | storeRefreshToken tokenId tenantId userId sessionId refreshTokenHash expiresAt =>
    simp only [AuthRepository.perform, AuthRepository.storeRefreshToken, hmode]
    exact hmode
  | revokeRefreshToken id =>
    simp only [AuthRepository.perform, AuthRepository.revokeRefreshToken]
    cases repo.getRefreshToken id <;> exact hmode
  | getUserByUsername | getUserById | listUsers | getRefreshToken | cleanupExpiredRefreshTokens => exact hmode

/-- Both modes, each on its own store. -/
def modes : Machine (AuthRepository × AuthTables) AuthOpEvent where
  step s e := some (finalState (s.1.perform e), finalState (s.2.perform e))

/-- In every sequence of operations on empty stores, the two modes agree at every
step exactly if at every step what is inserted is distinct. -/
theorem modes_agree_iff (es : List AuthOpEvent) :
    modes.Meets (fun s e => Agree (s.1.perform e) (s.2.perform e)) (.empty .memory, .empty) es ↔
      modes.Meets (fun s e => Distinct s.1 e) (.empty .memory, .empty) es := by
  have hinit : (AuthRepository.empty .memory).mode = .memory ∧ Holds (.empty .memory) .empty := ⟨rfl, rfl, rfl⟩
  refine modes.meets_congr (I := fun s => s.1.mode = .memory ∧ Holds s.1 s.2) ?_ ?_ hinit
  · rintro s e s' hd h ⟨hmode, hs⟩
    rw [← Option.some.inj h]
    exact ⟨perform_mode hmode e, (perform_agrees hmode hs e).2 hd⟩
  · rintro s e ⟨hmode, hs⟩
    exact (perform_agrees hmode hs e).1

/-- A user is created twice. -/
def createdTwice : List AuthOpEvent :=
  [⟨.createUser "u1" "acme" "alice" "hash" "employee" "active", 0, 0⟩,
    ⟨.createUser "u2" "acme" "alice" "hash2" "employee" "active", 0, 0⟩]

/-- In memory the second user replaces the first, in the database it is rejected. -/
theorem modes_disagree :
    ¬ modes.Meets (fun s e => Agree (s.1.perform e) (s.2.perform e)) (.empty .memory, .empty) createdTwice := by
  rintro ⟨-, h⟩
  exact (h _ rfl).1

end Ochestrate
