import Ochestrate.Framework.Machine

/-!
# A register and a subscriber

A register holds a value that is written over time; a subscriber has a mailbox
that starts with the value at its subscription and gets the value again with
every publication. It takes the values out one by one and ends with the first
`final` one. Values have a rank, and a write never lowers it and never
overwrites a final value (`ObserverEvent.Monotone`).

`Faithful` is what holds of the mailbox at any time: what it was sent is in
order of rank, ends with the current value unless a write waits for its
publication, and holds no final value but the current one. `faithful_keeps`
proves that every step keeps it.
-/

namespace Ochestrate

universe u

/-- Where a subscriber is: waiting for a value, suspended with one, at its end,
closed from outside, or ended by an exception before its first value. -/
inductive Phase | waiting | yielded | finished | closed | raised
  deriving DecidableEq, Repr

/-- The mailbox still gets what is published. -/
def Phase.registered : Phase → Bool
  | waiting | yielded | raised => true
  | finished | closed => false

structure Mailbox (α : Type u) where
  phase : Phase := .waiting
  delivered : List α := []
  pending : List α

/-- Everything a mailbox was sent. -/
def Mailbox.received {α : Type u} (b : Mailbox α) : List α := b.delivered ++ b.pending

def Mailbox.post {α : Type u} (b : Mailbox α) (v : α) : Mailbox α :=
  if b.phase.registered then { b with pending := b.pending ++ [v] } else b

/-- A register, whether its value waits for its publication, and a subscriber's
mailbox. -/
structure Observer (α : Type u) where
  current : Option α := none
  dirty : Bool := false
  box : Option (Mailbox α) := none

/-- `flush` is the publication a write waits for; `publish` is any other.
`subscribe first` starts with `first` if the register holds no value. -/
inductive ObserverEvent (α : Type u)
  | appear (v : α)
  | write (v : α)
  | publish
  | flush
  | subscribe (first : α)
  | refuse
  | next
  | resume
  | close
  | other

variable {α : Type u}

def observer (final : α → Bool) : Machine (Observer α) (ObserverEvent α) where
  step o
    | .appear v => if o.current.isNone ∧ o.box.isNone then some { current := some v } else none
    | .write v => if o.current.isSome then some { o with current := some v, dirty := true } else none
    | .publish => o.current.map fun v => { o with box := o.box.map (·.post v) }
    | .flush => o.current.map fun v => { o with dirty := false, box := o.box.map (·.post v) }
    | .subscribe first =>
      if o.box.isNone then some { o with box := some { pending := [o.current.getD first] } } else none
    | .refuse =>
      if o.current.isNone ∧ o.box.isNone then some { o with box := some { phase := .raised, pending := [] } }
      else none
    | .next => match o.box with
      | some ⟨.waiting, delivered, v :: pending⟩ =>
        some { o with box := some ⟨.yielded, delivered ++ [v], pending⟩ }
      | _ => none
    | .resume => match o.box with
      | some ⟨.yielded, delivered, pending⟩ => delivered.getLast?.map fun v =>
          { o with box := some ⟨if final v then .finished else .waiting, delivered, pending⟩ }
      | _ => none
    | .close => match o.box with
      | some ⟨phase, delivered, pending⟩ =>
        if phase = .waiting ∨ phase = .yielded then some { o with box := some ⟨.closed, delivered, pending⟩ }
        else none
      | none => none
    | .other => some o

section

variable (rank : α → Nat) (final : α → Bool)

/-- A write does not lower the rank and does not overwrite a final value. -/
def ObserverEvent.Monotone (o : Observer α) : ObserverEvent α → Prop
  | .write v' => ∀ v, o.current = some v → final v = false ∧ rank v ≤ rank v'
  | _ => True

/-- What holds of a mailbox while the register holds `v`. -/
structure Faithful (v : α) (dirty : Bool) (b : Mailbox α) : Prop where
  phase_ne : b.phase ≠ .raised
  sorted : b.received.Pairwise fun x y => rank x ≤ rank y
  bounded : ∀ x ∈ b.received, rank x ≤ rank v
  latest : b.phase.registered = true → dirty = false → b.received.getLast? = some v
  final_eq : ∀ x ∈ b.received, final x = true → x = v
  dropLast : ∀ x ∈ b.delivered.dropLast, final x = false
  waiting : b.phase = .waiting → ∀ x ∈ b.delivered, final x = false
  yielded : b.phase = .yielded → b.delivered ≠ []
  finished : b.phase = .finished → ∃ x, b.delivered.getLast? = some x ∧ final x = true

/-- The mailbox, if there is one, is faithful to the register. -/
def Observer.Faithful (o : Observer α) : Prop :=
  ∀ v, o.current = some v → ∀ b, o.box = some b → Ochestrate.Faithful rank final v o.dirty b

end

variable {rank : α → Nat} {final : α → Bool} {v : α} {b : Mailbox α}

theorem Faithful.post {dirty : Bool} (h : Faithful rank final v dirty b) :
    Faithful rank final v false (b.post v) := by
  unfold Mailbox.post
  split
  · rename_i hreg
    have hrec : ({ b with pending := b.pending ++ [v] } : Mailbox α).received = b.received ++ [v] := by
      simp only [Mailbox.received, List.append_assoc]
    refine ⟨h.phase_ne, ?_, ?_, ?_, ?_, h.dropLast, h.waiting, h.yielded,
      h.finished⟩
    · rw [hrec, List.pairwise_append]
      exact ⟨h.sorted, List.pairwise_singleton .., fun x hx y hy => List.mem_singleton.1 hy ▸ h.bounded x hx⟩
    · intro x hx
      rw [hrec, List.mem_append, List.mem_singleton] at hx
      rcases hx with hx | rfl
      · exact h.bounded x hx
      · exact Nat.le_refl _
    · intro _ _
      rw [hrec, List.getLast?_concat]
    · intro x hx hf
      rw [hrec, List.mem_append, List.mem_singleton] at hx
      exact hx.elim (fun hx => h.final_eq x hx hf) id
  · rename_i hreg
    exact ⟨h.phase_ne, h.sorted, h.bounded, fun hr => absurd hr hreg, h.final_eq, h.dropLast, h.waiting, h.yielded,
      h.finished⟩

/-- A publication that no write waits for. -/
theorem Faithful.post_dirty {dirty : Bool} (h : Faithful rank final v dirty b) :
    Faithful rank final v dirty (b.post v) :=
  have hp := h.post
  ⟨hp.phase_ne, hp.sorted, hp.bounded, fun hr _ => hp.latest hr rfl, hp.final_eq, hp.dropLast, hp.waiting,
    hp.yielded, hp.finished⟩

theorem Faithful.write {dirty : Bool} (h : Faithful rank final v dirty b) {v' : α} (hf : final v = false)
    (hr : rank v ≤ rank v') : Faithful rank final v' true b where
  phase_ne := h.phase_ne
  sorted := h.sorted
  bounded x hx := Nat.le_trans (h.bounded x hx) hr
  latest _ hd := nomatch hd
  final_eq x hx hx' := by rw [h.final_eq x hx hx', hf] at hx'; cases hx'
  dropLast := h.dropLast
  waiting := h.waiting
  yielded := h.yielded
  finished := h.finished

/-- A mailbox that has just been opened. -/
theorem Faithful.first {dirty : Bool} : Faithful rank final v dirty { pending := [v] } where
  phase_ne := by simp
  sorted := List.pairwise_singleton ..
  bounded x hx := Nat.le_of_eq (congrArg rank (List.mem_singleton.1 hx))
  latest _ _ := rfl
  final_eq x hx _ := List.mem_singleton.1 hx
  dropLast := by simp
  waiting := by simp
  yielded := by simp
  finished := by simp

/-- A value moves from the queue to the delivered ones. -/
theorem Faithful.next {dirty : Bool} {delivered pending : List α} {w : α}
    (h : Faithful rank final v dirty ⟨.waiting, delivered, w :: pending⟩) :
    Faithful rank final v dirty ⟨.yielded, delivered ++ [w], pending⟩ := by
  have hrec : (⟨.yielded, delivered ++ [w], pending⟩ : Mailbox α).received = delivered ++ w :: pending := by
    simp [Mailbox.received]
  refine ⟨by simp, hrec ▸ h.sorted, hrec ▸ h.bounded, fun _ hd => hrec ▸ h.latest rfl hd, hrec ▸ h.final_eq, ?_,
    by rintro ⟨⟩, fun _ => by simp, by rintro ⟨⟩⟩
  rw [List.dropLast_concat]
  exact h.waiting rfl

/-- After a final value the subscriber ends, after any other it waits. -/
theorem Faithful.resume {dirty : Bool} {delivered pending : List α} {w : α}
    (h : Faithful rank final v dirty ⟨.yielded, delivered, pending⟩) (hw : delivered.getLast? = some w) :
    Faithful rank final v dirty ⟨if final w then .finished else .waiting, delivered, pending⟩ := by
  obtain ⟨ds, rfl⟩ := List.getLast?_eq_some_iff.1 hw
  have hdropLast := h.dropLast
  simp only [List.dropLast_concat] at hdropLast
  cases hf : final w with
  | true =>
    exact ⟨by simp, h.sorted, h.bounded, by rintro ⟨⟩, h.final_eq, h.dropLast, by rintro ⟨⟩, by rintro ⟨⟩,
      fun _ => ⟨w, hw, hf⟩⟩
  | false =>
    refine ⟨by simp, h.sorted, h.bounded, fun _ hd => h.latest rfl hd, h.final_eq, h.dropLast, fun _ x hx => ?_,
      by rintro ⟨⟩, by rintro ⟨⟩⟩
    rcases List.mem_append.1 hx with hx | hx
    · exact hdropLast x hx
    · exact List.mem_singleton.1 hx ▸ hf

theorem Faithful.close {dirty : Bool} {phase : Phase} {delivered pending : List α}
    (h : Faithful rank final v dirty ⟨phase, delivered, pending⟩) :
    Faithful rank final v dirty ⟨.closed, delivered, pending⟩ :=
  ⟨by simp, h.sorted, h.bounded, by rintro ⟨⟩, h.final_eq, h.dropLast, by rintro ⟨⟩, by rintro ⟨⟩, by rintro ⟨⟩⟩

/-- The steps of an observer, one constructor for each branch of `observer`. -/
inductive ObserverStep (final : α → Bool) (o : Observer α) : ObserverEvent α → Observer α → Prop
  | appear (v : α) (hcurrent : o.current = none) (hbox : o.box = none) : ObserverStep final o (.appear v) { current := some v }
  | write {w : α} (v : α) (hcurrent : o.current = some w) :
      ObserverStep final o (.write v) { o with current := some v, dirty := true }
  | publish {w : α} (hcurrent : o.current = some w) : ObserverStep final o .publish { o with box := o.box.map (·.post w) }
  | flush {w : α} (hcurrent : o.current = some w) :
      ObserverStep final o .flush { o with dirty := false, box := o.box.map (·.post w) }
  | subscribe (first : α) (hbox : o.box = none) :
      ObserverStep final o (.subscribe first) { o with box := some { pending := [o.current.getD first] } }
  | refuse (hcurrent : o.current = none) (hbox : o.box = none) :
      ObserverStep final o .refuse { o with box := some { phase := .raised, pending := [] } }
  | next {delivered pending : List α} {w : α} (hbox : o.box = some ⟨.waiting, delivered, w :: pending⟩) :
      ObserverStep final o .next { o with box := some ⟨.yielded, delivered ++ [w], pending⟩ }
  | resume {delivered pending : List α} {w : α} (hbox : o.box = some ⟨.yielded, delivered, pending⟩)
      (hlast : delivered.getLast? = some w) :
      ObserverStep final o .resume { o with box := some ⟨if final w then .finished else .waiting, delivered, pending⟩ }
  | close {phase : Phase} {delivered pending : List α} (hbox : o.box = some ⟨phase, delivered, pending⟩)
      (hphase : phase = .waiting ∨ phase = .yielded) :
      ObserverStep final o .close { o with box := some ⟨.closed, delivered, pending⟩ }
  | other : ObserverStep final o .other o

theorem observerStep {o o' : Observer α} {e : ObserverEvent α} (h : (observer final).step o e = some o') :
    ObserverStep final o e o' := by
  cases e with
  | appear v =>
    obtain ⟨⟨hcurrent, hbox⟩, h⟩ := Option.ite_none_right_eq_some.1 h
    exact Option.some.inj h ▸ .appear v (Option.isNone_iff_eq_none.1 hcurrent) (Option.isNone_iff_eq_none.1 hbox)
  | write v =>
    obtain ⟨hsome, h⟩ := Option.ite_none_right_eq_some.1 h
    obtain ⟨w, hw⟩ := Option.isSome_iff_exists.1 hsome
    exact Option.some.inj h ▸ .write v hw
  | publish =>
    obtain ⟨w, hw, h⟩ := Option.map_eq_some_iff.1 h
    exact h ▸ .publish hw
  | flush =>
    obtain ⟨w, hw, h⟩ := Option.map_eq_some_iff.1 h
    exact h ▸ .flush hw
  | subscribe first =>
    obtain ⟨hbox, h⟩ := Option.ite_none_right_eq_some.1 h
    exact Option.some.inj h ▸ .subscribe first (Option.isNone_iff_eq_none.1 hbox)
  | refuse =>
    obtain ⟨⟨hcurrent, hbox⟩, h⟩ := Option.ite_none_right_eq_some.1 h
    exact Option.some.inj h ▸ .refuse (Option.isNone_iff_eq_none.1 hcurrent) (Option.isNone_iff_eq_none.1 hbox)
  | next =>
    simp only [observer] at h
    split at h
    · next hbox => exact Option.some.inj h ▸ .next hbox
    · cases h
  | resume =>
    simp only [observer] at h
    split at h
    · next hbox =>
      obtain ⟨w, hw, h⟩ := Option.map_eq_some_iff.1 h
      exact h ▸ .resume hbox hw
    · cases h
  | close =>
    simp only [observer] at h
    split at h
    · next hbox =>
      obtain ⟨hphase, h⟩ := Option.ite_none_right_eq_some.1 h
      exact Option.some.inj h ▸ .close hbox hphase
    · cases h
  | other => exact Option.some.inj h ▸ .other

theorem faithful_keeps :
    (observer final).Keeps (fun o e => e.Monotone rank final o) (Observer.Faithful rank final) := by
  intro o e o' he h hi v hv b hb
  cases observerStep h with
  | appear => cases hb
  | write v' hcurrent =>
    cases hv
    exact (hi _ hcurrent b hb).write (he _ hcurrent).1 (he _ hcurrent).2
  | publish hcurrent =>
    obtain ⟨b', hb', rfl⟩ := Option.map_eq_some_iff.1 hb
    cases hcurrent.symm.trans hv
    exact (hi _ hcurrent b' hb').post_dirty
  | flush hcurrent =>
    obtain ⟨b', hb', rfl⟩ := Option.map_eq_some_iff.1 hb
    cases hcurrent.symm.trans hv
    exact (hi _ hcurrent b' hb').post
  | subscribe first =>
    cases hb
    rw [show o.current = some v from hv, Option.getD_some]
    exact .first
  | refuse hcurrent => cases hcurrent.symm.trans hv
  | next hbox =>
    cases hb
    exact (hi v hv _ hbox).next
  | resume hbox hlast =>
    cases hb
    exact (hi v hv _ hbox).resume hlast
  | close hbox =>
    cases hb
    exact (hi v hv _ hbox).close
  | other => exact hi v hv b hb

theorem Mailbox.mem_received_post {w x : α} (hx : x ∈ (b.post w).received) :
    x ∈ b.received ∨ (b.phase.registered = true ∧ x = w) := by
  unfold Mailbox.post at hx
  split at hx
  · rename_i hreg
    simp only [received, ← List.append_assoc, List.mem_append (t := [w]), List.mem_singleton] at hx
    exact hx.imp_right fun hx => ⟨hreg, hx⟩
  · exact .inl hx

/-- What a mailbox is sent is the register's value, or what it was subscribed
with. -/
theorem mem_received_of_step {o o' : Observer α} {e : ObserverEvent α} (h : (observer final).step o e = some o')
    (hb : o'.box = some b) {x : α} (hx : x ∈ b.received) :
    (∃ b₀, o.box = some b₀ ∧ x ∈ b₀.received) ∨ o.current = some x ∨
      ∃ first, e = .subscribe first ∧ o.current.getD first = x := by
  have hposted : ∀ {w : α}, o.current = some w → o.box.map (·.post w) = some b →
      (∃ b₀, o.box = some b₀ ∧ x ∈ b₀.received) ∨ o.current = some x := by
    intro w hcurrent hb
    obtain ⟨b₀, hb₀, rfl⟩ := Option.map_eq_some_iff.1 hb
    exact (Mailbox.mem_received_post hx).imp (fun hx => ⟨b₀, hb₀, hx⟩) fun ⟨_, hx⟩ => hx ▸ hcurrent
  cases observerStep h with
  | appear => cases hb
  | write => exact .inl ⟨b, hb, hx⟩
  | publish hcurrent => exact (hposted hcurrent hb).imp_right .inl
  | flush hcurrent => exact (hposted hcurrent hb).imp_right .inl
  | subscribe first =>
    cases hb
    exact .inr (.inr ⟨first, rfl, (List.mem_singleton.1 hx).symm⟩)
  | refuse =>
    cases hb
    cases hx
  | next hbox =>
    cases hb
    exact .inl ⟨_, hbox, by simpa [Mailbox.received] using hx⟩
  | resume hbox =>
    cases hb
    exact .inl ⟨_, hbox, hx⟩
  | close hbox =>
    cases hb
    exact .inl ⟨_, hbox, hx⟩
  | other => exact .inl ⟨b, hb, hx⟩

end Ochestrate
