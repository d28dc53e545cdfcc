import Ochestrate.Framework.Machine
import Ochestrate.Auth.Service

/-!
# Concurrent updates of a user

In database mode `update_user` takes three transactions: it reads the user and
computes all three fields, it writes them to the row, and it reads the row back
for its answer. Two calls for one user interleave at these. A call that has read
and not yet written will write the fields that it does not set as it read them,
so a change that the other call commits in between (`Clobbered`) is undone:
updates of disjoint fields are both kept if and only if no commit is one
(`updates_kept_iff`).
-/

namespace Ochestrate

/-- The two calls. -/
inductive Caller | first | second
  deriving DecidableEq

/-- How far a call is. -/
inductive UpdateStage
  | pending
  | read (next : UserFields)
  | written
  | returned (answer : Option UserRecord)

/-- The call's write is done. -/
def UpdateStage.committed : UpdateStage → Bool
  | written | returned _ => true
  | _ => false

structure UpdateRun where
  repo : AuthRepository
  stage : Caller → UpdateStage

/-- The transactions of a call. -/
inductive UpdateEvent
  | read (c : Caller)
  | write (c : Caller)
  | refresh (c : Caller)

/-- A call reaches a stage. -/
def UpdateRun.reach (s : UpdateRun) (c : Caller) (stage : UpdateStage) : UpdateRun :=
  { s with stage := fun c' => if c' = c then stage else s.stage c' }

/-- The machine of two calls for the user. -/
def updates (tenantId userId : String) (update : Caller → UserUpdate) : Machine UpdateRun UpdateEvent where
  step s
    | .read c => match s.stage c with
      | .pending => match s.repo.getUserById tenantId userId with
        | none => some (s.reach c (.returned none))
        | some current => some (s.reach c (.read ((update c).next current.fields)))
      | _ => none
    | .write c => match s.stage c with
      | .read next => match AuthRepository.writeUser tenantId userId next s.repo with
        | .ok (some _) repo' => some { s.reach c .written with repo := repo' }
        | .ok none repo' => some { s.reach c (.returned none) with repo := repo' }
        | .error _ _ => none
      | _ => none
    | .refresh c => match s.stage c with
      | .written => some (s.reach c (.returned (s.repo.getUserById tenantId userId)))
      | _ => none

/-! ## Fields that are given -/

/-- The user has the values that the update gives. -/
def UserUpdate.Carried (update : UserUpdate) (fields : UserFields) : Prop := update.next fields = fields

instance (update : UserUpdate) (fields : UserFields) : Decidable (update.Carried fields) :=
  inferInstanceAs (Decidable (_ = _))

/-- The field is set. -/
def isGiven (given : Option String) : Bool := given.any (· ≠ "")

/-- No field is set by both updates. -/
structure UserUpdate.Disjoint (u v : UserUpdate) : Prop where
  role : isGiven u.role = false ∨ isGiven v.role = false
  status : isGiven u.status = false ∨ isGiven v.status = false
  passwordHash : isGiven u.passwordHash = false ∨ isGiven v.passwordHash = false

theorem UserUpdate.Disjoint.symm {u v : UserUpdate} (h : u.Disjoint v) : v.Disjoint u :=
  ⟨h.role.symm, h.status.symm, h.passwordHash.symm⟩

theorem givenOr_of_not {given : Option String} (h : isGiven given = false) (current : String) :
    givenOr given current = current := by
  unfold givenOr
  split
  · rfl
  · rename_i text
    have htext : text = "" := by simpa [isGiven] using h
    rw [if_pos htext]

theorem givenOr_givenOr (given : Option String) (current : String) :
    givenOr given (givenOr given current) = givenOr given current := by
  cases given with
  | none => rfl
  | some text => by_cases htext : text = "" <;> simp [givenOr, htext]

theorem givenOr_comm {g g' : Option String} (h : isGiven g = false ∨ isGiven g' = false) (current : String) :
    givenOr g (givenOr g' current) = givenOr g' (givenOr g current) := by
  rcases h with h | h <;> simp only [givenOr_of_not h]

namespace UserUpdate

variable {u v : UserUpdate} {fields : UserFields}

theorem next_carried (u : UserUpdate) (fields : UserFields) : u.Carried (u.next fields) := by
  simp only [Carried, next, givenOr_givenOr]

/-- Writing other fields keeps what an update gave. -/
theorem Carried.next (h : u.Carried fields) (hd : u.Disjoint v) : u.Carried (v.next fields) := by
  have hcomm : u.next (v.next fields) = v.next (u.next fields) := by
    simp only [UserUpdate.next, givenOr_comm hd.role, givenOr_comm hd.status, givenOr_comm hd.passwordHash]
  rw [Carried, hcomm, h]

/-- The fields that `v` writes over `fields` carry `u` only if `fields` do. -/
theorem carried_of_next (hd : u.Disjoint v) (h : u.Carried (v.next fields)) : u.Carried fields := by
  have hone : ∀ {g g' : Option String} {current : String}, isGiven g = false ∨ isGiven g' = false →
      givenOr g (givenOr g' current) = givenOr g' current → givenOr g current = current := by
    intro g g' current hd h
    rcases hd with hd | hd
    · exact givenOr_of_not hd current
    · rwa [givenOr_of_not hd] at h
  cases fields
  simp only [Carried, next, UserFields.mk.injEq] at h ⊢
  exact ⟨hone hd.role h.1, hone hd.status h.2.1, hone hd.passwordHash h.2.2⟩

end UserUpdate

/-! ## The steps -/

section Steps

variable {tenantId userId : String} {update : Caller → UserUpdate} {s s' : UpdateRun} {c : Caller}

/-- What a step does to a user that is stored: a call reads it, writes it, or
answers. -/
theorem updates_step {e : UpdateEvent} {user : UserRecord} (huser : s.repo.getUserById tenantId userId = some user)
    (h : (updates tenantId userId update).step s e = some s') :
    (∃ c, e = .read c ∧ s.stage c = .pending ∧ s' = s.reach c (.read ((update c).next user.fields))) ∨
    (∃ c next, e = .write c ∧ s.stage c = .read next ∧
      s' = { s.reach c .written with repo := s.repo.putUser (user.withFields next) }) ∨
    ∃ c, e = .refresh c ∧ s.stage c = .written ∧ s' = s.reach c (.returned (some user)) := by
  cases e with
  | read c =>
    simp only [updates, huser] at h
    split at h
    · rename_i hstage
      exact .inl ⟨c, rfl, hstage, (Option.some.inj h).symm⟩
    · cases h
  | write c =>
    simp only [updates, AuthRepository.writeUser, huser] at h
    split at h
    · rename_i next hstage
      exact .inr (.inl ⟨c, next, rfl, hstage, (Option.some.inj h).symm⟩)
    · cases h
  | refresh c =>
    simp only [updates, huser] at h
    split at h
    · rename_i hstage
      exact .inr (.inr ⟨c, rfl, hstage, (Option.some.inj h).symm⟩)
    · cases h

theorem stage_reach (s : UpdateRun) (c c' : Caller) (stage : UpdateStage) :
    (s.reach c stage).stage c' = if c' = c then stage else s.stage c' := rfl

/-- `update_user` is the run of its transactions; without a user it takes the
first of them. -/
theorem run_updateUser (hpending : s.stage c = .pending) :
    (updates tenantId userId update).Reaches s [.read c, .write c, .refresh c] fun s' =>
      ∃ answer, AuthRepository.updateUser tenantId userId (update c) s.repo = .ok answer s'.repo ∧
        s'.stage c = .returned answer := by
  unfold AuthRepository.updateUser
  rw [get_bind]
  cases huser : s.repo.getUserById tenantId userId with
  | none =>
    have hread : (updates tenantId userId update).step s (.read c) = some (s.reach c (.returned none)) := by
      simp only [updates, hpending, huser]
    exact Machine.reaches_cons _ hread (Machine.reaches_of _ ⟨none, rfl, (stage_reach ..).trans (if_pos rfl)⟩)
  | some user =>
    let next := (update c).next user.fields
    let s₁ := s.reach c (.read next)
    let s₂ : UpdateRun := { s₁.reach c .written with repo := s.repo.putUser (user.withFields next) }
    have huser' := AuthRepository.getUserById_putUser_withFields huser next
    have hread : (updates tenantId userId update).step s (.read c) = some s₁ := by
      simp only [updates, hpending, huser]
      rfl
    have hwrite : (updates tenantId userId update).step s₁ (.write c) = some s₂ := by
      have hstage : s₁.stage c = .read next := (stage_reach ..).trans (if_pos rfl)
      have hwriteUser : AuthRepository.writeUser tenantId userId next s₁.repo =
          .ok (some (user.withFields next)) (s.repo.putUser (user.withFields next)) := by
        change AuthRepository.writeUser tenantId userId next s.repo = _
        simp only [AuthRepository.writeUser, huser]
      simp only [updates, hstage, hwriteUser]
      rfl
    have hrefresh : (updates tenantId userId update).step s₂ (.refresh c) =
        some (s₂.reach c (.returned (some (user.withFields next)))) := by
      have hstage : s₂.stage c = .written := (stage_reach s₁ c c .written).trans (if_pos rfl)
      simp only [updates, hstage, show s₂.repo.getUserById tenantId userId = _ from huser']
    refine Machine.reaches_cons _ hread (Machine.reaches_cons _ hwrite (Machine.reaches_cons _ hrefresh
      (Machine.reaches_of _ ⟨some (user.withFields next), ?_, (stage_reach ..).trans (if_pos rfl)⟩)))
    simp only [AuthRepository.writeUser, huser]
    rfl

/-- The call commits a change of what the other call has read and not yet
written. -/
def Clobbers (tenantId userId : String) (update : Caller → UserUpdate) (s : UpdateRun) (e : UpdateEvent) : Prop :=
  ∃ c c' next user, e = .write c ∧ c ≠ c' ∧ s.stage c' = .read next ∧
    s.repo.getUserById tenantId userId = some user ∧ ¬ (update c).Carried user.fields

/-- What a call is about to write is what it would write now, and what it wrote
is still there. -/
def UpToDate (update : UserUpdate) (fields : UserFields) : UpdateStage → Prop
  | .pending => True
  | .read next => next = update.next fields
  | .written | .returned _ => update.Carried fields

/-- Nothing is lost. -/
def Kept (tenantId userId : String) (update : Caller → UserUpdate) (s : UpdateRun) : Prop :=
  ∃ user, s.repo.getUserById tenantId userId = some user ∧ ∀ c, UpToDate (update c) user.fields (s.stage c)

/-- The update does not survive in what the stage writes or has written. -/
def LostIn (update : UserUpdate) (fields : UserFields) : UpdateStage → Prop
  | .pending => False
  | .read next => ¬ update.Carried next
  | .written | .returned _ => ¬ update.Carried fields

/-- What one call has committed is lost, or will be when the other one commits. -/
def Lost (tenantId userId : String) (update : Caller → UserUpdate) (s : UpdateRun) : Prop :=
  ∃ user c c', s.repo.getUserById tenantId userId = some user ∧ c ≠ c' ∧ (s.stage c).committed = true ∧
    LostIn (update c) user.fields (s.stage c')

theorem kept_keeps (hd : (update .first).Disjoint (update .second)) :
    (updates tenantId userId update).Keeps (fun s e => ¬ Clobbers tenantId userId update s e)
      (Kept tenantId userId update) := by
  have hd' : ∀ {c c'}, c ≠ c' → (update c).Disjoint (update c') := by
    intro c c' hne
    cases c <;> cases c' <;> first | exact absurd rfl hne | exact hd | exact hd.symm
  rintro s e s' hc h ⟨user, huser, hkept⟩
  rcases updates_step huser h with ⟨c, rfl, hstage, rfl⟩ | ⟨c, next, rfl, hstage, rfl⟩ | ⟨c, rfl, hstage, rfl⟩
  · refine ⟨user, huser, fun c' => ?_⟩
    rw [stage_reach]
    split
    · rename_i hcc; rw [hcc]; rfl
    · exact hkept c'
  · have hnext : next = (update c).next user.fields := by
      have hc := hkept c
      rwa [hstage] at hc
    refine ⟨user.withFields next, AuthRepository.getUserById_putUser_withFields huser next, fun c' => ?_⟩
    change UpToDate (update c') next ((s.reach c .written).stage c')
    rw [stage_reach]
    split
    · rename_i hcc; rw [hcc, hnext]; exact (update c).next_carried _
    · rename_i hcc
      have hother := hkept c'
      cases hstage' : s.stage c' with
      | pending => trivial
      | read next' =>
        rw [hstage'] at hother
        -- the other call has read, so this write changes nothing
        have hsame : (update c).Carried user.fields := by
          by_contra hchange
          exact hc ⟨c, c', next', user, rfl, Ne.symm hcc, hstage', huser, hchange⟩
        rw [hnext, show (update c).next user.fields = user.fields from hsame]
        exact hother
      | written =>
        rw [hstage'] at hother
        rw [hnext]
        exact UserUpdate.Carried.next hother (hd' hcc)
      | returned answer =>
        rw [hstage'] at hother
        rw [hnext]
        exact UserUpdate.Carried.next hother (hd' hcc)
  · refine ⟨user, huser, fun c' => ?_⟩
    rw [stage_reach]
    split
    · rename_i hcc
      have hc := hkept c
      rw [hstage] at hc
      rw [hcc]
      exact hc
    · exact hkept c'

theorem lost_of_clobbers (hd : (update .first).Disjoint (update .second)) {e : UpdateEvent}
    (hclobbers : Clobbers tenantId userId update s e) (h : (updates tenantId userId update).step s e = some s')
    (hkept : Kept tenantId userId update s) : Lost tenantId userId update s' := by
  obtain ⟨user, huser, hkept⟩ := hkept
  obtain ⟨c, c', next', user', rfl, hne, hstage', huser', hchange⟩ := hclobbers
  obtain rfl := Option.some.inj (huser.symm.trans huser')
  have hd' : (update c).Disjoint (update c') := by
    cases c <;> cases c' <;> first | exact absurd rfl hne | exact hd | exact hd.symm
  rcases updates_step huser h with ⟨c₁, he, -⟩ | ⟨c₁, next, he, hstage, rfl⟩ | ⟨c₁, he, -⟩
  · cases he
  · cases he
    refine ⟨user.withFields next, c, c', AuthRepository.getUserById_putUser_withFields huser next, hne, ?_, ?_⟩
    · change ((s.reach c .written).stage c).committed = true
      rw [stage_reach, if_pos rfl]
      rfl
    · change LostIn (update c) next ((s.reach c .written).stage c')
      rw [stage_reach, if_neg (Ne.symm hne), hstage']
      have hother := hkept c'
      rw [hstage'] at hother
      intro hcarried
      rw [show next' = (update c').next user.fields from hother] at hcarried
      exact hchange (UserUpdate.carried_of_next hd' hcarried)
  · cases he

theorem lost_keeps : (updates tenantId userId update).Keeps (fun _ _ => True) (Lost tenantId userId update) := by
  rintro s e s' - h ⟨user, c, c', huser, hne, hcommitted, hlost⟩
  rcases updates_step huser h with ⟨c₁, rfl, hstage, rfl⟩ | ⟨c₁, next, rfl, hstage, rfl⟩ | ⟨c₁, rfl, hstage, rfl⟩
  · -- neither call is still pending
    have hc : c ≠ c₁ := by rintro rfl; rw [hstage] at hcommitted; cases hcommitted
    have hc' : c' ≠ c₁ := by rintro rfl; rw [hstage] at hlost; exact hlost
    exact ⟨user, c, c', huser, hne, by rwa [stage_reach, if_neg hc], by rwa [stage_reach, if_neg hc']⟩
  · -- the other call commits what it has read
    have hc : c ≠ c₁ := by rintro rfl; rw [hstage] at hcommitted; cases hcommitted
    have hc' : c' = c₁ := by cases c <;> cases c' <;> cases c₁ <;> first | rfl | exact absurd rfl hne | exact absurd rfl hc
    subst hc'
    rw [hstage] at hlost
    refine ⟨user.withFields next, c, c', AuthRepository.getUserById_putUser_withFields huser next, hne, ?_, ?_⟩
    · change ((s.reach c' .written).stage c).committed = true
      rwa [stage_reach, if_neg hc]
    · change LostIn (update c) next ((s.reach c' .written).stage c')
      rw [stage_reach, if_pos rfl]
      exact hlost
  · refine ⟨user, c, c', huser, hne, ?_, ?_⟩
    · rw [stage_reach]
      split
      · rfl
      · exact hcommitted
    · rw [stage_reach]
      split
      · rename_i hc
        rw [hc, hstage] at hlost
        exact hlost
      · exact hlost

end Steps

/-- Two updates of disjoint fields of one user: when both calls have returned,
the user carries both, exactly if neither call commits a change between the
other's read and its commit. -/
theorem updates_kept_iff {tenantId userId : String} {update : Caller → UserUpdate}
    (hd : (update .first).Disjoint (update .second)) {repo : AuthRepository} {user : UserRecord}
    (huser : repo.getUserById tenantId userId = some user) {es : List UpdateEvent} {s : UpdateRun}
    (h : (updates tenantId userId update).run ⟨repo, fun _ => .pending⟩ es = some s)
    (hreturned : ∀ c, ∃ answer, s.stage c = .returned answer) :
    (∃ record, s.repo.getUserById tenantId userId = some record ∧ ∀ c, (update c).Carried record.fields) ↔
      (updates tenantId userId update).Meets (fun s e => ¬ Clobbers tenantId userId update s e)
        ⟨repo, fun _ => .pending⟩ es := by
  have hkept : Kept tenantId userId update ⟨repo, fun _ => .pending⟩ := ⟨user, huser, fun _ => trivial⟩
  rcases (updates tenantId userId update).run_cases (kept_keeps hd)
    (fun hc h hk => lost_of_clobbers hd (not_not.1 hc) h hk) lost_keeps h hkept with
    ⟨hm, record, hrecord, hall⟩ | ⟨hm, record, c, c', hrecord, -, -, hlost⟩
  · refine iff_of_true ⟨record, hrecord, fun c => ?_⟩ hm
    obtain ⟨answer, hc⟩ := hreturned c
    have hdone := hall c
    rw [hc] at hdone
    exact hdone
  · refine iff_of_false ?_ hm
    rintro ⟨record', hrecord', hcarried⟩
    obtain rfl := Option.some.inj (hrecord.symm.trans hrecord')
    obtain ⟨answer, hc'⟩ := hreturned c'
    rw [hc'] at hlost
    exact hlost (hcarried c)

/-! ## An account that is enabled again -/

/-- Alice is disabled, and her password changed. -/
def aliceUpdates : Caller → UserUpdate
  | .first => { status := some "disabled" }
  | .second => { passwordHash := some "hash2" }

def aliceStored : AuthRepository := (AuthRepository.empty .database).putUser alice

/-- The second call reads before the first one commits. -/
def overlappingUpdates : List UpdateEvent :=
  [.read .first, .read .second, .write .first, .refresh .first, .write .second, .refresh .second]

/-- Both calls return, and Alice is active. -/
theorem status_lost :
    (aliceUpdates .first).Disjoint (aliceUpdates .second) ∧
      ∃ s, (updates "acme" "u1" aliceUpdates).run ⟨aliceStored, fun _ => .pending⟩ overlappingUpdates = some s ∧
        (∀ c, ∃ answer, s.stage c = .returned answer) ∧
        (s.repo.getUserById "acme" "u1").map (·.status) = some "active" ∧
        ¬ ∃ record, s.repo.getUserById "acme" "u1" = some record ∧ ∀ c, (aliceUpdates c).Carried record.fields := by
  refine ⟨⟨.inl rfl, .inr rfl, .inl rfl⟩, _, rfl, fun c => by cases c <;> exact ⟨_, rfl⟩, rfl, ?_⟩
  rintro ⟨record, hrecord, hcarried⟩
  obtain rfl := Option.some.inj hrecord
  exact absurd (hcarried .first) (by decide)

/-- The second call reads after the commit. -/
def laterUpdates : List UpdateEvent :=
  [.read .first, .write .first, .read .second, .refresh .first, .write .second, .refresh .second]

/-- `updates_kept_iff` there. -/
theorem updates_kept_iff_alice :
    ∃ s, (updates "acme" "u1" aliceUpdates).run ⟨aliceStored, fun _ => .pending⟩ laterUpdates = some s ∧
      ((∃ record, s.repo.getUserById "acme" "u1" = some record ∧ ∀ c, (aliceUpdates c).Carried record.fields) ↔
        (updates "acme" "u1" aliceUpdates).Meets (fun s e => ¬ Clobbers "acme" "u1" aliceUpdates s e)
          ⟨aliceStored, fun _ => .pending⟩ laterUpdates) :=
  ⟨_, rfl, updates_kept_iff ⟨.inl rfl, .inr rfl, .inl rfl⟩ rfl rfl fun c => by cases c <;> exact ⟨_, rfl⟩⟩

end Ochestrate
