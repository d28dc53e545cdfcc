import Ochestrate.Workers.Life

/-!
# Where a task is

A task in memory has at most one claim on the worker: its submission is about
to enqueue it, its id is in the queue, or the worker has it (`Life.claims`). As
long as this holds, its status follows its place (`Life.Placed`): it is
`queued` until the worker marks it, and with the last statement of the worker
it is completed or failed, with a row that no start recovers.

A start is what can break this: it enqueues every recoverable row once more,
whatever the queue holds. `placed_step` shows that every step but such a start
keeps `Placed`, and `terminal_step` that a placed task, once completed or
failed, is neither changed nor run again. `terminal_stays` is the result for
the runs of a process.
-/

namespace Ochestrate

namespace Life

/-- The claims of a task on the worker. -/
def claims (l : Life) : Nat :=
  l.waiting + (if l.submission = some .created then 1 else 0) + (if l.stage.isSome then 1 else 0)

/-- No start recovers the row. -/
def RowSettled (l : Life) : Prop := ∀ r, l.row = some r → r.status.recoverable = false

/-- The status of an envelope at the stage of the worker. -/
def Fits (l : Life) (status : TaskStatus) : Prop :=
  match l.stage with
  | none | some .taken => status = .queued ∨ (l.claims = 0 ∧ status.terminal = true ∧ l.RowSettled)
  | some .marked | some .started | some .running => status = .running
  | some (.finished _) => status.terminal = true
  | some .persisted => status.terminal = true ∧ l.RowSettled

/-- A task in memory has at most one claim on the worker and the status of its
place; nobody works for a task that is not in memory. -/
def Placed (l : Life) : Prop :=
  match l.envelope with
  | none => l.submission = none ∧ (l.stage = none ∨ l.stage = some .taken)
  | some task => l.claims ≤ 1 ∧ l.Fits task.status

end Life

/-- A start recovers a task whose id is in the queue, or that its submission is
about to enqueue. -/
def LifeEvent.Requeues (l : Life) : LifeEvent → Prop
  | .recover _ => 0 < l.waiting ∨ l.submission = some .created
  | _ => False

/-- The process dies. -/
def LifeEvent.crashes : LifeEvent → Bool
  | .crash _ => true
  | _ => false

theorem TaskEnvelope.settle_terminal (task : TaskEnvelope) (outcome : Except Exc UnifiedResponse) :
    (task.settle outcome).status.terminal = true := by
  cases outcome <;> rfl

theorem TaskRecord.settle_recoverable (mode : RepoMode) (r : TaskRecord) (outcome : Except Exc UnifiedResponse) :
    (r.settle mode outcome).status.recoverable = false := by
  cases outcome <;> simp [settle, TaskStatus.recoverable]

namespace Life

variable {l : Life} {task : TaskEnvelope}

theorem placed_of_none (he : l.envelope = none) (hsub : l.submission = none)
    (hstage : l.stage = none ∨ l.stage = some .taken) : l.Placed := by
  rw [Placed, he]; exact ⟨hsub, hstage⟩

theorem placed_of_some (he : l.envelope = some task) (hc : l.claims ≤ 1) (hf : l.Fits task.status) :
    l.Placed := by
  rw [Placed, he]; exact ⟨hc, hf⟩

theorem Placed.of_none (hp : l.Placed) (he : l.envelope = none) :
    l.submission = none ∧ (l.stage = none ∨ l.stage = some .taken) := by
  rwa [Placed, he] at hp

theorem Placed.of_some (hp : l.Placed) (he : l.envelope = some task) : l.claims ≤ 1 ∧ l.Fits task.status := by
  rwa [Placed, he] at hp

theorem claims_of_stage {stage : Stage} (h : l.stage = some stage) :
    l.claims = l.waiting + (if l.submission = some .created then 1 else 0) + 1 := by
  simp [claims, h]

theorem claims_of_idle (h : l.stage = none) :
    l.claims = l.waiting + if l.submission = some .created then 1 else 0 := by
  simp [claims, h]

/-- A task with a claim that the worker has not marked is queued. -/
theorem Fits.queued {status : TaskStatus} (hf : l.Fits status) (hs : l.stage = none ∨ l.stage = some .taken)
    (hc : l.claims ≠ 0) : status = .queued := by
  rcases hs with hs | hs <;> simp only [Fits, hs] at hf <;> exact hf.resolve_right fun h => hc h.1

theorem fits_queued (hs : l.stage = none ∨ l.stage = some .taken) : l.Fits .queued := by
  rcases hs with hs | hs <;> simp only [Fits, hs, true_or]

/-- A task whose submission is about to enqueue it has no other claim. -/
theorem Placed.of_created (hp : l.Placed) (hsub : l.submission = some .created) :
    ∃ task, l.envelope = some task ∧ l.stage = none ∧ l.waiting = 0 ∧ task.status = .queued := by
  cases hl : l.envelope with
  | none => exact absurd (hsub.symm.trans (hp.of_none hl).1) (by simp)
  | some task =>
    obtain ⟨hc, hf⟩ := hp.of_some hl
    have hstage : l.stage = none := by
      cases hs : l.stage with
      | none => rfl
      | some stage => rw [claims_of_stage hs, if_pos hsub] at hc; omega
    have hclaims := claims_of_idle hstage
    rw [if_pos hsub] at hclaims
    exact ⟨task, rfl, hstage, by omega, hf.queued (.inl hstage) (by omega)⟩

/-- A task in the queue has no other claim. -/
theorem Placed.of_waiting (hp : l.Placed) (hl : l.envelope = some task) (hwait : 0 < l.waiting) :
    l.waiting = 1 ∧ l.submission ≠ some .created ∧ l.stage = none ∧ task.status = .queued := by
  obtain ⟨hc, hf⟩ := hp.of_some hl
  have hstage : l.stage = none := by
    cases hs : l.stage with
    | none => rfl
    | some stage => rw [claims_of_stage hs] at hc; omega
  have hclaims := claims_of_idle hstage
  have hsub : l.submission ≠ some .created := fun hsub => by rw [if_pos hsub] at hclaims; omega
  rw [if_neg hsub] at hclaims
  exact ⟨by omega, hsub, hstage, hf.queued (.inl hstage) (by omega)⟩

/-- A task the worker holds has no other claim. -/
theorem Placed.of_stage (hp : l.Placed) (hl : l.envelope = some task) {stage : Stage} (hs : l.stage = some stage) :
    l.waiting = 0 ∧ l.submission ≠ some .created := by
  obtain ⟨hc, -⟩ := hp.of_some hl
  have hclaims := claims_of_stage hs
  have hsub : l.submission ≠ some .created := fun hsub => by rw [if_pos hsub] at hclaims; omega
  exact ⟨by omega, hsub⟩

/-- A task the worker has marked is in memory. -/
theorem Placed.known (hp : l.Placed) {stage : Stage} (hs : l.stage = some stage) (hne : stage ≠ .taken) :
    ∃ task, l.envelope = some task := by
  cases hl : l.envelope with
  | none =>
    rcases (hp.of_none hl).2 with h | h
    · rw [h] at hs; cases hs
    · rw [h, Option.some.injEq] at hs; exact absurd hs.symm hne
  | some task => exact ⟨task, rfl⟩

end Life

variable {P : Pydantic} {id : TaskId}

/-- Every step but a start that requeues the task keeps it placed. -/
theorem placed_step {l l' : Life} {e : LifeEvent} (h : (lifeCycle P id).step l e = some l')
    (he : ¬ e.Requeues l) (hp : l.Placed) : l'.Placed := by
  -- at a stage after `taken`, the claims stay the worker's
  have hknown : ∀ stage, l.stage = some stage → stage ≠ .taken → ∃ task, l.envelope = some task ∧
      l.waiting + (if l.submission = some .created then 1 else 0) + 1 ≤ 1 ∧ l.Fits task.status := by
    intro stage hs hne
    obtain ⟨task, hl⟩ := hp.known hs hne
    obtain ⟨hc, hf⟩ := hp.of_some hl
    exact ⟨task, hl, Life.claims_of_stage hs ▸ hc, hf⟩
  cases lifeStep h with
  | @submit request create unborn =>
    obtain ⟨-, -, -, -, hwait, hstage⟩ := unborn
    rw [Option.isNone_iff_eq_none] at hstage
    refine Life.placed_of_some rfl ?_ (Life.fits_queued (.inl hstage))
    cases create <;> simp [Life.claims, hstage, hwait, Fault.raises]
  | @enqueue enq hsub =>
    obtain ⟨task, hl, hstage, hwait, hq⟩ := hp.of_created hsub
    refine Life.placed_of_some hl ?_ (hq ▸ Life.fits_queued (.inl hstage))
    cases enq <;> simp [Life.claims, hstage, hwait, Fault.takesEffect, Fault.raises]
  | publish hsub =>
    cases hl : l.envelope with
    | none => exact absurd (hsub.symm.trans (hp.of_none hl).1) (by simp)
    | some task =>
      obtain ⟨hc, hf⟩ := hp.of_some hl
      refine Life.placed_of_some rfl ?_ ?_
      · simpa [Life.claims, hsub] using hc
      · simpa [Life.Fits, Life.claims, Life.RowSettled, hsub] using hf
  | dequeue hstage hwait =>
    cases hl : l.envelope with
    | none => exact Life.placed_of_none rfl (hp.of_none hl).1 (.inr rfl)
    | some task =>
      obtain ⟨hone, hsub, -, hq⟩ := hp.of_waiting hl hwait
      refine Life.placed_of_some rfl ?_ (hq ▸ Life.fits_queued (.inr rfl))
      simp [Life.claims, hone, hsub]
  | drop hstage hl => exact Life.placed_of_none hl (hp.of_none hl).1 (.inl rfl)
  | mark hstage hl =>
    have hc := (Life.claims_of_stage hstage).symm.trans_le (hp.of_some hl).1
    exact Life.placed_of_some rfl hc rfl
  | begin hstage | announce hstage =>
    obtain ⟨task, hl, hc, hf⟩ := hknown _ hstage (by simp)
    rw [Life.Fits, hstage] at hf
    exact Life.placed_of_some hl hc hf
  | @run task outcome hstage hl =>
    have hc := (Life.claims_of_stage hstage).symm.trans_le (hp.of_some hl).1
    exact Life.placed_of_some rfl hc (task.settle_terminal outcome)
  | @persist outcome hstage =>
    obtain ⟨task, hl, hc, hf⟩ := hknown _ hstage (by simp)
    rw [Life.Fits, hstage] at hf
    refine Life.placed_of_some hl hc ⟨hf, fun r hr => ?_⟩
    obtain ⟨r', -, rfl⟩ := Option.map_eq_some_iff.1 hr
    exact r'.settle_recoverable l.mode outcome
  | finish hstage =>
    obtain ⟨task, hl, hc, hf⟩ := hknown _ hstage (by simp)
    rw [Life.Fits, hstage] at hf
    have hzero : Life.claims { l with stage := none } = 0 := by
      simp only [Life.claims, Option.isSome_none, Bool.false_eq_true, ↓reduceIte]; omega
    exact Life.placed_of_some hl (by omega) (.inr ⟨hzero, hf⟩)
  | @recover request enq hstage hrow =>
    obtain ⟨hwait, hsub⟩ := not_or.1 he
    have hzero : l.waiting = 0 := by omega
    refine Life.placed_of_some rfl ?_ (Life.fits_queued (.inl hstage))
    cases enq <;> simp [Life.claims, hstage, hsub, hzero, Fault.takesEffect]
  | stop hstage => exact hp
  | abandon hstage =>
    cases hl : l.envelope with
    | none => exact Life.placed_of_none rfl (hp.of_none hl).1 (.inl rfl)
    | some task =>
      obtain ⟨hwait, hsub⟩ := hp.of_stage hl hstage
      have hclaim : l.claims ≠ 0 := by rw [Life.claims_of_stage hstage]; omega
      have hq := (hp.of_some hl).2.queued (.inr hstage) hclaim
      refine Life.placed_of_some rfl ?_ (hq ▸ Life.fits_queued (.inl rfl))
      simp [Life.claims, hwait, hsub]
  | crash => exact Life.placed_of_none rfl rfl (.inl rfl)
  | other => exact hp

/-- A placed task that is completed or failed keeps its envelope and is not run
again. -/
theorem terminal_step {l l' : Life} {e : LifeEvent} (h : (lifeCycle P id).step l e = some l')
    (hcrash : e.crashes = false) (hp : l.Placed) {task : TaskEnvelope} (hl : l.envelope = some task)
    (ht : task.status.terminal = true) : l'.envelope = some task ∧ l'.runs = l.runs := by
  obtain ⟨-, hf⟩ := hp.of_some hl
  cases lifeStep h with
  | submit unborn =>
    obtain ⟨-, -, hno, -⟩ := unborn
    rw [hl] at hno; cases hno
  | drop hstage hno => rw [hl] at hno; cases hno
  | mark hstage _ =>
    have hq := hf.queued (.inr hstage) (by rw [Life.claims_of_stage hstage]; omega)
    rw [hq] at ht; cases ht
  | run hstage _ =>
    rw [Life.Fits, hstage] at hf
    rw [hf] at ht; cases ht
  | recover hstage hrow =>
    obtain ⟨r, hr, hrecovers⟩ := Option.bind_eq_some_iff.1 hrow
    obtain ⟨hstatus, -⟩ := Option.ite_none_right_eq_some.1 hrecovers
    rw [Life.Fits, hstage] at hf
    rcases hf with hq | ⟨-, -, hsettled⟩
    · rw [hq] at ht; cases ht
    · rw [hsettled r hr] at hstatus; cases hstatus
  | crash => cases hcrash
  | enqueue | publish | dequeue | begin | announce | persist | finish | stop | abandon | other => exact ⟨hl, rfl⟩

/-! ## The runs of a process -/

/-- The process dies. -/
def NodeEvent.crashes : NodeEvent → Bool
  | .crash _ => true
  | _ => false

namespace Node

/-- The in-memory status of a task. -/
def status (s : Node) (id : TaskId) : Option TaskStatus := (s.tasks.get? id).map (·.status)

/-- The requests `orchestrator.run` was called with for a task. -/
def runs (s : Node) (id : TaskId) : List UnifiedRequest := (s.life id).runs

/-- A process before its first start and its first submission, over a queue and
a repository that may hold anything. -/
def Initial (s : Node) : Prop := s.tasks = .empty ∧ s.submits = .empty ∧ s.worker = .off

/-- This event is a start that recovers the task although its id is in the
queue, or its submission is about to enqueue it. -/
def requeues (P : Pydantic) (id : TaskId) (s : Node) : NodeEvent → Bool
  | .start .. =>
    !s.workerTask && ((s.repo.get id).bind (·.recovers P)).isSome &&
      (id ∈ s.queue || s.submits.get? id = some .created)
  | _ => false

theorem Initial.placed {s : Node} (h : s.Initial) (id : TaskId) : (s.life id).Placed := by
  obtain ⟨ht, hs, hw⟩ := h
  refine Life.placed_of_none ?_ ?_ (.inl ?_)
  · simp [life, ht]
  · simp [life, hs]
  · simp [life, hw, Worker.stage]

theorem requeues_of_life {s : Node} {e : NodeEvent} (h : (s.lifeEvent P id e).Requeues (s.life id)) :
    s.requeues P id e = true := by
  have hseen := seen P id s e
  cases hl : s.lifeEvent P id e with
  | recover enq =>
    rw [hl] at h hseen
    cases hseen with
    | recover faults records hstopped hrecovers =>
      have hclaim : id ∈ s.queue ∨ s.submits.get? id = some .created := h.imp_left List.count_pos_iff.1
      simpa [requeues, hstopped, hrecovers] using hclaim
  | _ =>
    rw [hl] at h
    exact h.elim

theorem crashes_lifeEvent {e : NodeEvent} (h : e.crashes = false) (s : Node) :
    (s.lifeEvent P id e).crashes = false := by
  cases e with
  | crash _ => cases h
  | idle | subscribe _ _ | next _ | resume _ | close _ | stop => rfl
  | _ => simp only [lifeEvent]; split <;> rfl

end Node

/-- Every step that requeues no task keeps it placed. -/
theorem placed_keeps (P : Pydantic) (id : TaskId) :
    (node P).Keeps (fun s e => s.requeues P id e = false) fun s => (s.life id).Placed :=
  (lifeOf P id).keeps (C := fun s e => s.requeues P id e = false) (D := fun l e => ¬ e.Requeues l) (I := Life.Placed)
    (fun hc hs hp => placed_step hs hc hp) fun _ _ hc hr => by
      simp [Node.requeues_of_life hr] at hc

/-- In a run in which no start requeues the task: once it is completed or
failed, its status never changes and it is not run again. -/
theorem terminal_stays {s₀ s s' : Node} {es es' : List NodeEvent} (h₀ : s₀.Initial)
    (h : (node P).run s₀ es = some s) (h' : (node P).run s es' = some s')
    (hcrash : ∀ e ∈ es', e.crashes = false)
    (hm : (node P).Meets (fun s e => s.requeues P id e = false) s₀ (es ++ es')) {status : TaskStatus}
    (hs : s.status id = some status) (ht : status.terminal = true) :
    s'.status id = some status ∧ s'.runs id = s.runs id := by
  obtain ⟨hm₁, hm₂⟩ := (node P).meets_append hm
  have hp : (s.life id).Placed := (node P).run_inv (placed_keeps P id) hm₁ h (h₀.placed id)
  obtain ⟨task, htask, hstatus⟩ := Option.map_eq_some_iff.1 hs
  have hkeeps : (node P).Keeps (fun s e => s.requeues P id e = false ∧ e.crashes = false) fun s' =>
      (s'.life id).Placed ∧ s'.tasks.get? id = some task ∧ s'.runs id = s.runs id := by
    rintro s₁ e s₂ ⟨hreq, hno⟩ hstep ⟨hp₁, htask₁, hruns₁⟩
    obtain ⟨htask₂, hruns₂⟩ := terminal_step ((lifeOf P id).sim hstep) (Node.crashes_lifeEvent hno s₁) hp₁ htask₁
      (hstatus ▸ ht)
    exact ⟨placed_keeps P id hreq hstep hp₁, htask₂, hruns₂.trans hruns₁⟩
  have hm₃ := ((node P).meets_and.2 ⟨hm₂ s h, (node P).meets_of_forall (D := fun e => e.crashes = false) hcrash⟩)
  obtain ⟨-, htask', hruns'⟩ := (node P).run_inv hkeeps hm₃ h' ⟨hp, htask, rfl⟩
  exact ⟨by rw [Node.status, htask', Option.map_some, hstatus], hruns'⟩

/-- A restart between the submission and its execution enqueues the id a second
time. -/
def requeueEvents : List NodeEvent :=
  [.start noFault [], .submit "t" hello .none, .enqueue "t" .none, .publish "t", .stop,
    .start noFault [.ofRequest "t" hello]] ++ iterationEvents (.ok .sample)

/-- The second id is run after the task completed, and fails. -/
theorem requeued_runs_again :
    ((node .strict).run (.init .memory) requeueEvents).map (fun s => (s.status "t", s.runs "t")) =
      some (some .completed, [hello]) ∧
    ((node .strict).run (.init .memory) (requeueEvents ++ iterationEvents (.error ⟨.other, "down"⟩))).map
      (fun s => (s.status "t", s.runs "t")) = some (some .failed, [hello, hello]) := by
  decide

def finishEvents : List NodeEvent :=
  [.start noFault [], .submit "t" hello .none, .enqueue "t" .none, .publish "t"] ++
    iterationEvents (.ok .sample)

/-- `terminal_stays` across a restart after the task completed. -/
theorem terminal_stays_restart :
    ∃ s s', (node .strict).run (.init .memory) finishEvents = some s ∧
      (node .strict).run s [.stop, .start noFault []] = some s' ∧
      s'.status "t" = some .completed ∧ s'.runs "t" = s.runs "t" := by
  have hrun : ((node .strict).run (.init .memory) finishEvents).map (·.status "t") = some (some .completed) := by
    decide
  have hrun' : ((node .strict).run (.init .memory) (finishEvents ++ [.stop, .start noFault []])).isSome := by
    decide
  obtain ⟨s, hs, hstatus⟩ := Option.map_eq_some_iff.1 hrun
  obtain ⟨s', hs'⟩ := Option.isSome_iff_exists.1 hrun'
  rw [(node .strict).run_append, hs, Option.bind_some] at hs'
  exact ⟨s, s', hs, hs', terminal_stays ⟨rfl, rfl, rfl⟩ hs hs' (by decide) (by decide) hstatus rfl⟩

end Ochestrate
