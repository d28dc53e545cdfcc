import Ochestrate.Api.Errors
import Ochestrate.Api.RequestContext
import Ochestrate.Workers.Streams

/-!
# Reading tasks over the API

`app/api/v1/tasks.py`. A caller reads a task if it belongs to the caller's
tenant, and `_assert_task_tenant_access` decides this by the row of the
repository, while `get_status` answers from memory first. Isolation rests on
what ties the two (`Life.Attributed`): a task in memory has a row, and the row
has the tenant of the request.

A `submit` whose `create` raises leaves an envelope without a row
(`NodeEvent.unrecorded`), and everybody reads it. Without such a submission a
task answers its own tenant only (`tenant_isolated`): its status at any time,
and its event stream from the check to the end. For this a task that is not
known has to stay silent (`Node.Silent`): a stream that was let in because the
task has no row gets `task_not_found` and nothing after it.
-/

namespace Ochestrate

/-- The answer to a caller of another tenant. -/
def crossTenant : HttpError := ⟨403, "cross-tenant task access denied"⟩

/-- `_assert_task_tenant_access`. -/
def assertTaskTenantAccess (s : System) (id : TaskId) (auth : AuthContext) : Except HttpError Unit :=
  match s.repo.get id with
  | none => .ok ()
  | some record => if record.tenantId ≠ auth.tenantId then .error crossTenant else .ok ()

/-- `GET /tasks/{task_id}`; an exception becomes an internal error. -/
def getTaskStatus (P : Pydantic) (s : System) (id : TaskId) (auth : AuthContext) :
    Except HttpError TaskStatusResponse :=
  match assertTaskTenantAccess s id auth with
  | .error err => .error err
  | .ok _ =>
    match s.getStatus P id with
    | .ok snapshot => .ok snapshot
    | .error _ => .error ⟨500, "Internal Server Error"⟩

/-- `POST /tasks/submit`. -/
def submitTask (id : TaskId) (payload : UnifiedRequest) (auth : AuthContext) (create : Fault Exc) : NodeEvent :=
  .submit id (bindUnifiedRequestAuth payload auth) create

/-- The answer for a task that is neither in memory nor in the repository. -/
def taskNotFound (id : TaskId) : TaskStatusResponse where
  taskId := id
  status := .failed
  error := some "task_not_found"

/-- Tasks are submitted over the API only. -/
def NodeEvent.Authenticated : NodeEvent → Prop
  | .submit id request create => ∃ payload auth, NodeEvent.submit id request create = submitTask id payload auth create
  | _ => True

/-- A submission of the task whose `create` raises before it wrote the row. -/
def NodeEvent.unrecorded (id : TaskId) : NodeEvent → Bool
  | .submit id' _ create => id' = id && !create.takesEffect
  | _ => false

/-- The task's request carries the tenant. -/
def Node.SubmittedBy (s : Node) (id : TaskId) (tenantId : String) : Prop :=
  ∃ request, s.submitted.get? id = some request ∧ request.tenantId = some tenantId

/-! ## A task in memory has a row of its tenant -/

namespace Life

/-- A task in memory has a row, and both are of the submitted request. -/
structure Attributed (l : Life) : Prop where
  recorded : ∀ task, l.envelope = some task → l.row ≠ none
  request : ∀ task, l.envelope = some task → l.submitted = some task.request
  row : ∀ r, l.row = some r → ∃ request, l.submitted = some request ∧ r.tenantId = request.tenantId.getD "" ∧
    r.requestJson = some request.modelDump
  tenant : ∀ request, l.submitted = some request → request.tenantId ≠ none

end Life

/-- A submission of a request without a tenant, or that leaves no row. -/
def LifeEvent.Unattributed : LifeEvent → Prop
  | .submit request create => request.tenantId = none ∨ create.takesEffect = false
  | _ => False

variable {P : Pydantic} {id : TaskId}

theorem TaskRecord.updateStatus_request (mode : RepoMode) (r : TaskRecord) (status : TaskStatus)
    (t : Option String) (j : Option Json) (e : Option String) :
    (r.updateStatus mode status t j e).tenantId = r.tenantId ∧
      (r.updateStatus mode status t j e).requestJson = r.requestJson := by
  cases mode <;> exact ⟨rfl, rfl⟩

theorem attributed_step {l l' : Life} {e : LifeEvent} (h : (lifeCycle P id).step l e = some l')
    (he : ¬ e.Unattributed) (hi : l.Attributed) : l'.Attributed := by
  cases lifeStep h with
  | @submit request create unborn =>
    obtain ⟨htenant, hcreate⟩ := not_or.1 he
    rw [Bool.not_eq_false] at hcreate
    refine ⟨?_, ?_, ?_, ?_⟩
    · intro task _; simp [hcreate]
    · rintro task ⟨⟩; rfl
    · intro r hr
      simp only [hcreate, ↓reduceIte, Option.some.injEq] at hr
      exact ⟨request, rfl, hr ▸ rfl, hr ▸ rfl⟩
    · rintro request' ⟨⟩; exact htenant
  | enqueue | publish | dequeue | drop | announce | finish | abandon =>
    exact ⟨hi.recorded, hi.request, hi.row, hi.tenant⟩
  | @mark task hstage hl =>
    refine ⟨fun _ _ => hi.recorded task hl, ?_, hi.row, hi.tenant⟩
    rintro task' ⟨⟩; exact hi.request task hl
  | begin =>
    refine ⟨fun task hl hnone => hi.recorded task hl (Option.map_eq_none_iff.1 hnone), hi.request, ?_, hi.tenant⟩
    intro r hr
    obtain ⟨r', hr', rfl⟩ := Option.map_eq_some_iff.1 hr
    simp only [TaskRecord.updateStatus_request]
    exact hi.row r' hr'
  | @run task outcome hstage hl =>
    refine ⟨fun _ _ => hi.recorded task hl, ?_, hi.row, hi.tenant⟩
    rintro task' ⟨⟩
    rw [hi.request task hl]
    cases outcome <;> rfl
  | @persist outcome =>
    refine ⟨fun task hl hnone => hi.recorded task hl (Option.map_eq_none_iff.1 hnone), hi.request, ?_, hi.tenant⟩
    intro r hr
    obtain ⟨r', hr', rfl⟩ := Option.map_eq_some_iff.1 hr
    cases outcome <;> simp only [TaskRecord.settle, TaskRecord.updateStatus_request] <;> exact hi.row r' hr'
  | @recover request enq hstage hrow =>
    obtain ⟨r, hr, hrecovers⟩ := Option.bind_eq_some_iff.1 hrow
    obtain ⟨-, hreq⟩ := Option.ite_none_right_eq_some.1 hrecovers
    obtain ⟨request', hsub, -, hjson⟩ := hi.row r hr
    -- the stored request is read back as it was written
    have heq : request = request' := by
      rw [TaskRecord.recoveredRequest, hjson, Option.filter_some, if_pos request'.truthy_modelDump, Option.bind_some,
        P.request_dump, Option.some.injEq] at hreq
      exact hreq.symm
    refine ⟨fun _ _ => by rw [hr]; simp, ?_, hi.row, hi.tenant⟩
    rintro task ⟨⟩; rw [heq]; exact hsub
  | stop | other => exact hi
  | crash =>
    refine ⟨by rintro task ⟨⟩, by rintro task ⟨⟩, fun r hr => ?_, hi.tenant⟩
    cases hm : l.mode with
    | memory => simp only [hm] at hr; cases hr
    | database => simp only [hm] at hr; exact hi.row r hr

/-! ## A task that is not known is silent -/

namespace Node

variable {s s' : Node}

/-- The task is neither in memory nor in the repository. -/
def Unknown (s : Node) (id : TaskId) : Prop := s.tasks.get? id = none ∧ s.repo.get id = none

/-- While the task is not known, its streams are told so. -/
def Silent (s : Node) (id : TaskId) : Prop :=
  s.Unknown id → ∀ k b, s.box id k = some b → ∀ x ∈ b.received, x = taskNotFound id

theorem Unknown.getStatus (h : s.Unknown id) : s.getStatus P id = .ok (taskNotFound id) := by
  simp only [System.getStatus, System.storedStatus, h.1, h.2]; rfl

/-- A step makes a task known by submitting it only, and unknown by a crash
only. -/
theorem unknown_step {l l' : Life} {e : LifeEvent} (h : (lifeCycle P id).step l e = some l') :
    (l.envelope = none ∧ l.row = none → (l'.envelope = none ∧ l'.row = none) ∨
        ∃ request create, e = .submit request create) ∧
      (l'.envelope = none ∧ l'.row = none → (l.envelope = none ∧ l.row = none) ∨ e.crashes = true) := by
  cases lifeStep h with
  | submit => exact ⟨fun _ => .inr ⟨_, _, rfl⟩, fun hn => by cases hn.1⟩
  | mark _ hl | run _ hl =>
    refine ⟨fun hn => ?_, fun hn => by cases hn.1⟩
    rw [hl] at hn; cases hn.1
  | begin | persist => exact ⟨fun hn => .inl ⟨hn.1, by simp [hn.2]⟩, fun hn => .inl ⟨hn.1, by simpa using hn.2⟩⟩
  | recover _ hrow =>
    refine ⟨fun hn => ?_, fun hn => by cases hn.1⟩
    rw [hn.2, Option.bind_none] at hrow; cases hrow
  | crash =>
    refine ⟨fun hn => .inl ⟨rfl, ?_⟩, fun _ => .inr rfl⟩
    dsimp only
    split
    · rfl
    · exact hn.2
  | _ => exact ⟨.inl, .inl⟩

theorem observerEvent_subscribe {k : SubId} {e : NodeEvent} {first : TaskStatusResponse}
    (h : s.observerEvent P id k e = .subscribe first) : s.getStatus P id = .ok first := by
  cases e with
  | subscribe k' id' =>
    simp only [observerEvent] at h
    split at h
    · split at h
      · rename_i hget; cases h; exact hget
      · cases h
    · cases h
  | work | run _ => simp only [observerEvent] at h; split at h <;> cases h
  | submit _ _ _ | publish _ | next _ | resume _ | close _ =>
    simp only [observerEvent] at h; split at h <;> cases h
  | _ => cases h

theorem silent_step {e : NodeEvent} (h : (node P).step s e = some s') (hr : s.Registered) (hi : s.Silent id) :
    s'.Silent id := by
  intro hunknown k b hb x hx
  cases hcrash : e.crashes with
  | true =>
    cases e with
    | crash keepQueue => rw [← Option.some.inj h] at hb; cases hb
    | _ => cases hcrash
  | false =>
    have hbefore : s.Unknown id := ((unknown_step (life_step P h id)).2 hunknown).resolve_right
      (by rw [crashes_lifeEvent hcrash]; decide)
    cases he : e.ofStream with
    | true =>
      have hnone : (s.observed id k).current = none := by simp only [observed, hbefore.1, Option.map_none]
      rcases mem_received_of_step (observed_stream h he hr) (by exact hb) hx with ⟨b₀, hb₀, hx₀⟩ | hcurrent | hsub
      · exact hi hbefore k b₀ hb₀ x hx₀
      · rw [hnone] at hcurrent; cases hcurrent
      · obtain ⟨first, hevent, hfirst⟩ := hsub
        have hget := observerEvent_subscribe hevent
        rw [hbefore.getStatus, Except.ok.injEq] at hget
        rw [hnone, Option.getD_none] at hfirst
        rw [← hfirst, hget]
    | false =>
      obtain ⟨-, hstreams, hqueues⟩ := quiet_streams h he hcrash
      rcases hqueues with hqueues | ⟨id', v, hqueues, hv⟩
      · rw [box_congr (s := s) (by rw [hstreams]) (by rw [hqueues])] at hb
        exact hi hbefore k b hb x hx
      · have hbox := box_broadcast id k hr hstreams hqueues
        by_cases hid : id' = id
        · subst hid
          rw [if_pos rfl, hb] at hbox
          obtain ⟨b₀, hb₀, rfl⟩ := Option.map_eq_some_iff.1 hbox.symm
          rcases Mailbox.mem_received_post hx with hx | ⟨hreg, rfl⟩
          · exact hi hbefore k b₀ hb₀ x hx
          · -- a stream that gets the publication is registered
            have hget := hv (List.ne_nil_of_mem (mem_subs_of_box hr hb₀ hreg))
            rw [hbefore.getStatus, Except.ok.injEq] at hget
            exact hget.symm
        · rw [if_neg hid, hb] at hbox
          exact hi hbefore k b hbox.symm x hx

theorem unattributed_of_life {e : NodeEvent} (hauth : e.Authenticated) (hrec : e.unrecorded id = false) :
    ¬ (s.lifeEvent P id e).Unattributed := by
  intro h
  have hseen := seen P id s e
  cases hl : s.lifeEvent P id e with
  | submit request create =>
    rw [hl] at h hseen
    cases hseen with
    | submit =>
      rcases h with h | h
      · obtain ⟨payload, auth, heq⟩ := hauth
        cases heq
        cases h
      · simp [NodeEvent.unrecorded, h] at hrec
  | _ =>
    rw [hl] at h
    exact h

theorem attributed_keeps (P : Pydantic) (id : TaskId) :
    (node P).Keeps (fun _ e => e.Authenticated ∧ e.unrecorded id = false) fun s => (s.life id).Attributed :=
  fun hc h hi => attributed_step (life_step P h id) (unattributed_of_life hc.1 hc.2) hi

theorem silent_keeps (P : Pydantic) (id : TaskId) :
    (node P).Keeps (fun _ _ => True) fun s => s.Registered ∧ s.Silent id :=
  fun _ h hi => ⟨registered_step h hi.1, silent_step h hi.1 hi.2⟩

/-- A caller that passes the check is of the task's tenant, or the task is not
known. -/
theorem submittedBy_or_unknown (hi : (s.life id).Attributed) {auth : AuthContext}
    (h : assertTaskTenantAccess s.toSystem id auth = .ok ()) : s.SubmittedBy id auth.tenantId ∨ s.Unknown id := by
  unfold assertTaskTenantAccess at h
  split at h
  · rename_i hrow
    refine .inr ⟨?_, hrow⟩
    cases ht : s.tasks.get? id with
    | none => rfl
    | some task => exact absurd hrow (hi.recorded task ht)
  · rename_i r hrow
    split at h
    · cases h
    · rename_i heq
      rw [not_not] at heq
      obtain ⟨request, hsub, htenant, -⟩ := hi.row r hrow
      obtain ⟨tenant, hsome⟩ := Option.ne_none_iff_exists'.1 (hi.tenant request hsub)
      rw [hsome, Option.getD_some] at htenant
      exact .inl ⟨request, hsub, by rw [hsome, ← heq, htenant]⟩

/-- A task stays unknown until it is submitted. -/
theorem unknown_keeps (P : Pydantic) (id : TaskId) :
    (node P).Keeps (fun _ e => ∀ request create, e ≠ .submit id request create) fun s => s.Unknown id := by
  intro s e s' hno h hu
  rcases (unknown_step (life_step P h id)).1 hu with hu' | ⟨request, create, he⟩
  · exact hu'
  · exact absurd (lifeEvent_submit he) (hno request create)

end Node

/-- In every reachable state without an unrecorded submission of the task, over
any number of crashes and restarts: a caller that gets anything but a refusal or
`task_not_found` is of the tenant that the task's request carries. The same holds
of all that a stream gets after its check, as `uuid4` does not draw the id of a
task that was asked for. -/
theorem tenant_isolated {mode : RepoMode} {s s' : Node} {es es' : List NodeEvent}
    (h : (node P).run (.init mode) es = some s) (h' : (node P).run s es' = some s')
    (hauth : ∀ e ∈ es, e.Authenticated) {id : TaskId} (hrec : ∀ e ∈ es, e.unrecorded id = false)
    (hfresh : ∀ request create, NodeEvent.submit id request create ∉ es') (auth : AuthContext) :
    (getTaskStatus P s.toSystem id auth = .error crossTenant ∨
      getTaskStatus P s.toSystem id auth = .ok (taskNotFound id) ∨ s.SubmittedBy id auth.tenantId) ∧
    (assertTaskTenantAccess s.toSystem id auth = .ok () → ∀ k stream, s'.streams.get? k = some stream →
      stream.taskId = id → ∀ x ∈ stream.delivered, x = taskNotFound id ∨ s.SubmittedBy id auth.tenantId) := by
  have hattr : (s.life id).Attributed := (node P).run_inv (Node.attributed_keeps P id)
    ((node P).meets_of_forall (D := fun e => e.Authenticated ∧ e.unrecorded id = false)
      fun e he => ⟨hauth e he, hrec e he⟩) h
    ⟨by rintro task ⟨⟩, by rintro task ⟨⟩, by rintro r ⟨⟩, by rintro request ⟨⟩⟩
  have hsilent : s'.Registered ∧ s'.Silent id := (node P).run_stays (Node.silent_keeps P id)
    (by rw [(node P).run_append, h, Option.bind_some]; exact h')
    ⟨Node.registered_of_empty (s := .init mode) rfl rfl rfl, fun _ k b hb => by cases hb⟩
  refine ⟨?_, fun hok k stream hk hid x hx => ?_⟩
  · unfold getTaskStatus
    split
    · rename_i err herr
      refine .inl ?_
      unfold assertTaskTenantAccess at herr
      split at herr
      · cases herr
      · split at herr
        · rw [← Except.error.inj herr]
        · cases herr
    · rename_i hok
      rcases Node.submittedBy_or_unknown hattr hok with hsub | hunknown
      · exact .inr (.inr hsub)
      · exact .inr (.inl (by rw [hunknown.getStatus]))
  · refine (Node.submittedBy_or_unknown hattr hok).symm.imp_left fun hunknown => ?_
    have hunknown' : s'.Unknown id := (node P).run_inv (Node.unknown_keeps P id)
      ((node P).meets_of_forall (D := fun e => ∀ request create, e ≠ .submit id request create)
        fun e he request create heq => hfresh request create (heq ▸ he)) h' hunknown
    subst hid
    exact hsilent.2 hunknown' k ⟨stream.phase, stream.delivered, (s'.queues.get? k).getD []⟩
      (by simp only [Node.box, hk, ↓reduceIte]) x (List.mem_append_left _ hx)

def aliceAuth : AuthContext where
  tenantId := "acme"
  userId := "u1"
  role := "employee"
  sessionId := "s1"
  tokenExp := 1800

def malloryAuth : AuthContext := { aliceAuth with tenantId := "other", userId := "u2", sessionId := "s2" }

/-- `create` raises before it writes the row; a caller of another tenant reads
the task. -/
theorem unrecorded_leaks :
    ((node .strict).run (.init .database) [submitTask "t" hello aliceAuth (.before ⟨.other, "down"⟩)]).map (fun s =>
      ((getTaskStatus .strict s.toSystem "t" malloryAuth).toOption.map (·.status),
        (s.submitted.get? "t").map (·.tenantId))) =
      some (some .queued, some (some "acme")) := by
  decide

/-- Alice submits a task and subscribes to it; it is executed. -/
def aliceEvents : List NodeEvent :=
  [.start noFault [], submitTask "t" hello aliceAuth .none, .enqueue "t" .none, .publish "t", .subscribe 0 "t"]

/-- `tenant_isolated` for the owner of the task and its stream. -/
theorem tenant_isolated_alice :
    ∃ s s', (node .strict).run (.init .memory) aliceEvents = some s ∧
      (node .strict).run s (iterationEvents (.ok .sample) ++ [.next 0]) = some s' ∧
      (getTaskStatus .strict s.toSystem "t" aliceAuth = .error crossTenant ∨
        getTaskStatus .strict s.toSystem "t" aliceAuth = .ok (taskNotFound "t") ∨ s.SubmittedBy "t" "acme") := by
  have hrun : ((node .strict).run (.init .memory) aliceEvents).isSome := by decide
  have hrun' :
      ((node .strict).run (.init .memory) (aliceEvents ++ (iterationEvents (.ok .sample) ++ [.next 0]))).isSome := by
    decide
  obtain ⟨s, hs⟩ := Option.isSome_iff_exists.1 hrun
  obtain ⟨s', hs'⟩ := Option.isSome_iff_exists.1 hrun'
  rw [(node .strict).run_append, hs, Option.bind_some] at hs'
  have hauth : ∀ e ∈ aliceEvents, e.Authenticated := by
    simp only [aliceEvents, List.forall_mem_cons, NodeEvent.Authenticated, submitTask, List.not_mem_nil, false_implies,
      implies_true, and_true, true_and]
    exact ⟨hello, aliceAuth, rfl⟩
  exact ⟨s, s', hs, hs',
    (tenant_isolated hs hs' hauth (by decide) (by simp [iterationEvents]) aliceAuth).1⟩

end Ochestrate
