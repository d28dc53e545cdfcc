import Ochestrate.Framework.Machine
import Ochestrate.Auth.Service

/-!
# Concurrent bootstrap requests

`create_bootstrap_admin_if_needed` looks its user up, asks whether the store is
empty, and creates the user, in three calls of the repository. Any number of
requests interleave at these. A request that has found the store empty will
create its user; one that asks before it has (`tooEarly`) finds it empty too,
and both create theirs. Without such a step at most one user is ever created
(`bootstrap_once`).
-/

namespace Ochestrate

/-- How far a request is: it has begun, its user does not exist, the store is
empty, it has returned or raised. -/
inductive BootstrapStage
  | begun
  | missing
  | vacant
  | returned (record : UserRecord)
  | failed (exc : Exc)

structure BootstrapRequest where
  tenantId : String
  username : String
  passwordHash : String
  stage : BootstrapStage

/-- The repository, the requests, and the users that they have created. -/
structure BootstrapRun where
  repo : AuthRepository
  requests : Dict Nat BootstrapRequest := .empty
  created : List UserRecord := []

inductive BootstrapEvent
  | request (i : Nat) (tenantId username passwordHash : String)
  | lookup (i : Nat)
  | check (i : Nat)
  | create (i : Nat) (userId : String) (now serverNow : Time)

namespace BootstrapRun

/-- A request reaches a stage. -/
def reach (s : BootstrapRun) (i : Nat) (r : BootstrapRequest) (stage : BootstrapStage) : BootstrapRun :=
  { s with requests := s.requests.set i { r with stage := stage } }

/-- The request's own `create_user`. -/
def create (s : BootstrapRun) (i : Nat) (r : BootstrapRequest) (userId : String) (now serverNow : Time) :
    BootstrapRun :=
  match AuthRepository.createUser now serverNow userId r.tenantId r.username r.passwordHash "admin" "active" s.repo with
  | .ok record repo' => { s.reach i r (.returned record) with repo := repo', created := s.created ++ [record] }
  | .error exc repo' => { s.reach i r (.failed exc) with repo := repo' }

end BootstrapRun

/-- The machine of the requests. -/
def bootstraps : Machine BootstrapRun BootstrapEvent where
  step s
    | .request i tenantId username passwordHash =>
      if s.requests.get? i = none then
        some { s with requests := s.requests.set i ⟨tenantId, username, passwordHash, .begun⟩ }
      else none
    | .lookup i => (s.requests.get? i).bind fun r => match r.stage with
      | .begun => match s.repo.getUserByUsername r.tenantId r.username with
        | some existing => some (s.reach i r (.returned existing))
        | none => some (s.reach i r .missing)
      | _ => none
    | .check i => (s.requests.get? i).bind fun r => match r.stage with
      | .missing =>
        if s.repo.isEmpty then some (s.reach i r .vacant)
        else some (s.reach i r (.failed
          ⟨.permissionError, "bootstrap admin disabled because users already exist"⟩))
      | _ => none
    | .create i userId now serverNow => (s.requests.get? i).bind fun r => match r.stage with
      | .vacant => some (s.create i r userId now serverNow)
      | _ => none

/-- The request has found the store empty, and not yet created its user. -/
def BootstrapStage.isVacant : BootstrapStage → Bool
  | vacant => true
  | _ => false

/-- The stage of a request that ended. -/
def BootstrapStage.ofResult : EStateM.Result Exc AuthRepository UserRecord → BootstrapStage
  | .ok record _ => .returned record
  | .error exc _ => .failed exc

namespace BootstrapRun

variable {s s' : BootstrapRun} {i : Nat} {r : BootstrapRequest}

theorem get?_reach (s : BootstrapRun) (i j : Nat) (r : BootstrapRequest) (stage : BootstrapStage) :
    (s.reach i r stage).requests.get? j = if j = i then some { r with stage := stage } else s.requests.get? j :=
  Dict.get?_set ..

/-- `create_bootstrap_admin_if_needed` is the run of its calls; a request that
ends earlier takes the first of them. -/
theorem run_bootstrap (hi : s.requests.get? i = none) (tenantId username passwordHash userId : String)
    (now serverNow : Time) :
    bootstraps.Reaches s
      [.request i tenantId username passwordHash, .lookup i, .check i, .create i userId now serverNow] fun s' =>
        let result := AuthRepository.createBootstrapAdminIfNeeded now serverNow userId tenantId username passwordHash s.repo
        s'.repo = finalState result ∧ (s'.requests.get? i).map (·.stage) = some (.ofResult result) := by
  let r : BootstrapRequest := ⟨tenantId, username, passwordHash, .begun⟩
  have hstage : ∀ (s : BootstrapRun) (r : BootstrapRequest) (stage : BootstrapStage),
      ((s.reach i r stage).requests.get? i).map (·.stage) = some stage := by
    intro s r stage
    rw [get?_reach, if_pos rfl, Option.map_some]
  unfold AuthRepository.createBootstrapAdminIfNeeded
  rw [get_bind]
  refine Machine.reaches_cons _ (if_pos hi) ?_
  cases huser : s.repo.getUserByUsername tenantId username with
  | some existing =>
    have hlookup : bootstraps.step { s with requests := s.requests.set i r } (.lookup i) =
        some (BootstrapRun.reach { s with requests := s.requests.set i r } i r (.returned existing)) := by
      simp only [bootstraps, Dict.get?_set_self, Option.bind_some, r, huser]
    exact Machine.reaches_cons _ hlookup (Machine.reaches_of _ ⟨rfl, hstage ..⟩)
  | none =>
    let s₁ := BootstrapRun.reach { s with requests := s.requests.set i r } i r .missing
    have hlookup : bootstraps.step { s with requests := s.requests.set i r } (.lookup i) = some s₁ := by
      simp only [bootstraps, Dict.get?_set_self, Option.bind_some, r, huser]
      rfl
    have hmissing : s₁.requests.get? i = some { r with stage := .missing } := Dict.get?_set_self ..
    refine Machine.reaches_cons _ hlookup ?_
    dsimp only
    rw [get_bind]
    cases hempty : s.repo.isEmpty with
    | false =>
      have hcheck : bootstraps.step s₁ (.check i) = some (s₁.reach i { r with stage := .missing } (.failed
          ⟨.permissionError, "bootstrap admin disabled because users already exist"⟩)) := by
        simp only [bootstraps, hmissing, Option.bind_some, show s₁.repo.isEmpty = false from hempty]
        rfl
      exact Machine.reaches_cons _ hcheck (Machine.reaches_of _ ⟨rfl, hstage ..⟩)
    | true =>
      let s₂ := s₁.reach i { r with stage := .missing } .vacant
      have hcheck : bootstraps.step s₁ (.check i) = some s₂ := by
        simp only [bootstraps, hmissing, Option.bind_some, show s₁.repo.isEmpty = true from hempty, ↓reduceIte]
        rfl
      have hvacant : s₂.requests.get? i = some { r with stage := .vacant } := Dict.get?_set_self ..
      have hcreate : bootstraps.step s₂ (.create i userId now serverNow) =
          some (s₂.create i { r with stage := .vacant } userId now serverNow) := by
        simp only [bootstraps, hvacant, Option.bind_some]
      refine Machine.reaches_cons _ hcheck (Machine.reaches_cons _ hcreate (Machine.reaches_of _ ?_))
      change (s₂.create i _ userId now serverNow).repo = finalState (AuthRepository.createUser now serverNow userId
          tenantId username passwordHash "admin" "active" s.repo) ∧ _ = some (BootstrapStage.ofResult
          (AuthRepository.createUser now serverNow userId tenantId username passwordHash "admin" "active" s.repo))
      have hsame : AuthRepository.createUser now serverNow userId r.tenantId r.username r.passwordHash "admin" "active"
          s₂.repo = AuthRepository.createUser now serverNow userId tenantId username passwordHash "admin" "active" s.repo :=
        rfl
      unfold BootstrapRun.create
      rw [hsame]
      cases AuthRepository.createUser now serverNow userId tenantId username passwordHash "admin" "active" s.repo with
      | ok record repo' => exact ⟨rfl, hstage s₂ _ _⟩
      | error exc repo' => exact ⟨rfl, hstage s₂ _ _⟩

/-- The requests are for one user, and its username is unique. -/
def SameUser (s : BootstrapRun) (r r' : BootstrapRequest) : Prop :=
  s.repo.mode = .database ∧ r.tenantId = r'.tenantId ∧ r.username = r'.username

instance (s : BootstrapRun) (r r' : BootstrapRequest) : Decidable (s.SameUser r r') :=
  inferInstanceAs (Decidable (_ ∧ _ ∧ _))

/-- The event finds the store empty for one request, while another has found it
empty and has not yet created its user. -/
def tooEarly (s : BootstrapRun) : BootstrapEvent → Bool
  | .check i => (s.requests.get? i).any fun r =>
    s.repo.isEmpty && s.requests.values.any fun r' => r'.stage.isVacant && !decide (s.SameUser r r')
  | _ => false

/-- Nobody has created a user, and one request at most is about to; or one user
is created, and no request can create another. -/
def Single (s : BootstrapRun) : Prop :=
  (s.created = [] ∧ s.repo.isEmpty = true ∧
    ∀ i j r r', s.requests.get? i = some r → s.requests.get? j = some r' → r.stage = .vacant → r'.stage = .vacant →
      i = j ∨ s.SameUser r r') ∨
  (s.created.length = 1 ∧ s.repo.isEmpty = false ∧
    ∀ i r, s.requests.get? i = some r → r.stage = .vacant →
      s.repo.mode = .database ∧ (s.repo.getUserByUsername r.tenantId r.username).isSome)

/-- No request finds the store empty, and nothing is written. -/
theorem Single.quiet (hs : s.Single) (hrepo : s'.repo = s.repo) (hcreated : s'.created = s.created)
    (hback : ∀ i r, s'.requests.get? i = some r → r.stage = .vacant → s.requests.get? i = some r) : s'.Single := by
  unfold Single SameUser at hs ⊢
  rw [hrepo, hcreated]
  rcases hs with ⟨hnone, hempty, hvacant⟩ | ⟨hone, hempty, hvacant⟩
  · exact .inl ⟨hnone, hempty, fun i j r r' hi hj hr hr' => hvacant i j r r' (hback i r hi hr) (hback j r' hj hr') hr hr'⟩
  · exact .inr ⟨hone, hempty, fun i r hi hr => hvacant i r (hback i r hi hr) hr⟩

theorem Single.reach (hs : s.Single) (r : BootstrapRequest) {stage : BootstrapStage} (hstage : stage ≠ .vacant) :
    (s.reach i r stage).Single := by
  refine hs.quiet rfl rfl fun j r' hj hr' => ?_
  rw [get?_reach] at hj
  split at hj
  · obtain rfl := Option.some.inj hj
    exact absurd hr' hstage
  · exact hj

/-- A request finds the store empty, while those that have are for its user. -/
theorem Single.vacant (hs : s.Single) (hi : s.requests.get? i = some r) (hempty : s.repo.isEmpty = true)
    (hm : s.tooEarly (.check i) = false) : (s.reach i r .vacant).Single := by
  have hsame : ∀ {j r'}, s.requests.get? j = some r' → r'.stage = .vacant → s.SameUser r r' := by
    intro j r' hj hr'
    by_contra hne
    have hany : s.requests.values.any (fun r' => r'.stage.isVacant && !decide (s.SameUser r r')) = true :=
      List.any_eq_true.2 ⟨r', (Dict.mem_values _).2 ⟨j, hj⟩, by rw [hr', decide_eq_false hne]; rfl⟩
    simp only [tooEarly, hi, Option.any_some, hempty, hany, Bool.and_self, Bool.true_eq_false] at hm
  rcases hs with ⟨hnone, -, hvacant⟩ | ⟨-, hempty', -⟩
  · refine .inl ⟨hnone, hempty, fun j k r₁ r₂ hj hk h₁ h₂ => ?_⟩
    rw [get?_reach] at hj hk
    split at hj <;> split at hk
    · rename_i hj' hk'
      exact .inl (hj'.trans hk'.symm)
    · obtain rfl := Option.some.inj hj
      exact .inr (hsame hk h₂)
    · obtain rfl := Option.some.inj hk
      obtain ⟨hmode, ht, hu⟩ := hsame hj h₁
      exact .inr ⟨hmode, ht.symm, hu.symm⟩
    · exact hvacant j k r₁ r₂ hj hk h₁ h₂
  · rw [hempty] at hempty'
    cases hempty'

/-- A request that has found the store empty creates its user, or finds the name
taken. -/
theorem Single.create (hs : s.Single) (hi : s.requests.get? i = some r) (hstage : r.stage = .vacant)
    (userId : String) (now serverNow : Time) : (s.create i r userId now serverNow).Single := by
  unfold BootstrapRun.create
  rcases hs with ⟨hnone, hempty, hvacant⟩ | ⟨hone, hempty, hvacant⟩
  · -- the only users in the store will be the request's own
    have hcreate : ∃ record, record.tenantId = r.tenantId ∧ record.username = r.username ∧
        AuthRepository.createUser now serverNow userId r.tenantId r.username r.passwordHash "admin" "active" s.repo =
          .ok record (s.repo.putUser record) := by
      obtain ⟨createdAt, hcreate⟩ := AuthRepository.createUser_of_isEmpty hempty now serverNow userId r.tenantId
        r.username r.passwordHash "admin" "active"
      exact ⟨_, rfl, rfl, hcreate⟩
    obtain ⟨record, ht, hu, hcreate⟩ := hcreate
    rw [hcreate]
    have hget : (s.repo.putUser record).users.get? (r.tenantId, r.username) = some record := by
      rw [← ht, ← hu]
      exact Dict.get?_set_self ..
    refine .inr ⟨by simp [hnone], ?_, fun j r' hj hr' => ?_⟩
    · rw [← Bool.not_eq_true, AuthRepository.isEmpty_iff]
      intro hempty'
      rw [hempty' (r.tenantId, r.username)] at hget
      cases hget
    · change (s.reach i r (.returned record)).requests.get? j = some r' at hj
      rw [get?_reach] at hj
      split at hj
      · obtain rfl := Option.some.inj hj
        cases hr'
      · rename_i hne
        rcases hvacant i j r r' hi hj hstage hr' with heq | ⟨hmode, htenant, husername⟩
        · exact absurd heq.symm hne
        · refine ⟨hmode, ?_⟩
          rw [← htenant, ← husername, AuthRepository.getUserByUsername, hget]
          rfl
  · obtain ⟨hmode, htaken⟩ := hvacant i r hi hstage
    have hcreate : AuthRepository.createUser now serverNow userId r.tenantId r.username r.passwordHash "admin" "active"
        s.repo = .error ⟨.integrityError, "UNIQUE constraint failed"⟩ s.repo := by
      unfold AuthRepository.createUser
      simp only [hmode, htaken, Bool.true_or, ↓reduceIte]
    rw [hcreate]
    exact Single.reach (.inr ⟨hone, hempty, hvacant⟩) r (by rintro ⟨⟩)

theorem single_keeps : bootstraps.Keeps (fun s e => s.tooEarly e = false) Single := by
  intro s e s' hm h hs
  cases e with
  | request i tenantId username passwordHash =>
    obtain ⟨-, h⟩ := Option.ite_none_right_eq_some.1 h
    obtain rfl := Option.some.inj h
    refine hs.quiet rfl rfl fun j r hj hr => ?_
    rw [Dict.get?_set] at hj
    split at hj
    · obtain rfl := Option.some.inj hj
      cases hr
    · exact hj
  | lookup i =>
    obtain ⟨r, hi, h⟩ := Option.bind_eq_some_iff.1 h
    split at h
    · split at h
      · rw [← Option.some.inj h]; exact hs.reach r (by rintro ⟨⟩)
      · rw [← Option.some.inj h]; exact hs.reach r (by rintro ⟨⟩)
    · cases h
  | check i =>
    obtain ⟨r, hi, h⟩ := Option.bind_eq_some_iff.1 h
    split at h
    · split at h
      · rename_i hempty
        rw [← Option.some.inj h]
        exact hs.vacant hi hempty hm
      · rw [← Option.some.inj h]; exact hs.reach r (by rintro ⟨⟩)
    · cases h
  | create i userId now serverNow =>
    obtain ⟨r, hi, h⟩ := Option.bind_eq_some_iff.1 h
    split at h
    · rename_i hstage
      rw [← Option.some.inj h]
      exact hs.create hi hstage userId now serverNow
    · cases h

end BootstrapRun

/-- In every run of bootstrap requests from a store without users in which no
request finds the store empty while another one has and has not yet created its
user: at most one user is created. -/
theorem bootstrap_once {repo : AuthRepository} (hempty : repo.isEmpty = true) {es : List BootstrapEvent}
    {s : BootstrapRun} (h : bootstraps.run { repo := repo } es = some s)
    (hm : bootstraps.Meets (fun s e => s.tooEarly e = false) { repo := repo } es) : s.created.length ≤ 1 := by
  have hinit : BootstrapRun.Single { repo := repo } := .inl ⟨rfl, hempty, fun i j r r' hi => by cases hi⟩
  rcases bootstraps.run_inv BootstrapRun.single_keeps hm h hinit with ⟨hnone, -⟩ | ⟨hone, -⟩
  · rw [hnone]; exact Nat.zero_le 1
  · exact hone.le

/-- Two requests of two tenants, the second a call behind the first. -/
def doubleBootstrap : List BootstrapEvent :=
  [.request 0 "acme" "alice" "hash", .request 1 "globex" "bob" "hash", .lookup 0, .lookup 1, .check 0, .check 1,
    .create 0 "u1" 0 0, .create 1 "u2" 0 0]

/-- Both create an administrator. -/
theorem bootstrap_twice :
    ∃ s, bootstraps.run { repo := .empty .database } doubleBootstrap = some s ∧
      s.created.map (fun user => (user.username, user.role)) = [("alice", "admin"), ("bob", "admin")] :=
  ⟨_, rfl, rfl⟩

/-- The second request asks after the first one has created its user. -/
def laterBootstrap : List BootstrapEvent :=
  [.request 0 "acme" "alice" "hash", .request 1 "globex" "bob" "hash", .lookup 0, .lookup 1, .check 0,
    .create 0 "u1" 0 0, .check 1]

/-- `bootstrap_once` where the second request fails. -/
theorem bootstrap_once_later :
    ∃ s, bootstraps.run { repo := .empty .database } laterBootstrap = some s ∧ s.created.length ≤ 1 := by
  have hrun : ∃ s, bootstraps.run { repo := .empty .database } laterBootstrap = some s := ⟨_, rfl⟩
  obtain ⟨s, hs⟩ := hrun
  exact ⟨s, hs, bootstrap_once rfl hs (by decide)⟩

end Ochestrate
