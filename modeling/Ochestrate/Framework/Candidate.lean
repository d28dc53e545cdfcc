import Mathlib.Data.List.Induction
import Mathlib.Order.Lattice

/-!
# Picking one element of a list

`lastWhere` is the last element of a kind, `lastOfEach` the list without the
elements whose key comes again. A scan keeps the first element, and
each later one that is greater than what it kept, under a relation that need not
be an order. `scan_unbeaten` is the rule for such a relation: the scan ends on an
element that nothing exceeds if it passes one that exceeds all others. For the
order of a key, `scan_eq_some_iff` says which element it ends on: the first of
the greatest.
-/

namespace Ochestrate

universe u v

/-- The last element that satisfies `p`. -/
def lastWhere {α : Type u} (p : α → Bool) (as : List α) : Option α := as.reverse.find? p

section LastWhere

variable {α : Type u} {p q : α → Bool} {as : List α} {a : α}

theorem lastWhere_concat (p : α → Bool) (as : List α) (a : α) :
    lastWhere p (as ++ [a]) = if p a then some a else lastWhere p as := by
  rw [lastWhere, List.reverse_append, List.reverse_singleton, List.singleton_append, List.find?_cons]
  cases p a <;> rfl

theorem lastWhere_append (p : α → Bool) (as bs : List α) :
    lastWhere p (as ++ bs) = (lastWhere p bs).or (lastWhere p as) := by
  rw [lastWhere, List.reverse_append, List.find?_append]
  rfl

theorem lastWhere_some (h : lastWhere p as = some a) : p a = true ∧ a ∈ as :=
  ⟨List.find?_some h, List.mem_reverse.1 (List.mem_of_find?_eq_some h)⟩

theorem lastWhere_eq_none : lastWhere p as = none ↔ ∀ a ∈ as, p a = false := by
  simp [lastWhere]

theorem lastWhere_filter (hpq : ∀ a, p a = true → q a = true) (as : List α) :
    lastWhere p (as.filter q) = lastWhere p as := by
  rw [lastWhere, ← List.filter_reverse, List.find?_filter]
  refine congrArg (as.reverse.find? ·) (funext fun a => ?_)
  cases hp : p a with
  | true => simp [hpq a hp]
  | false => simp

/-- The last of a larger kind is the last of a smaller one that it belongs to. -/
theorem lastWhere_of_imp (hqp : ∀ a, q a = true → p a = true) (h : lastWhere p as = some a) (ha : q a = true) :
    lastWhere q as = some a := by
  induction as using List.reverseRecOn with
  | nil => cases h
  | append_singleton as b ih =>
    rw [lastWhere_concat] at h ⊢
    cases hqb : q b with
    | true =>
      rw [if_pos (hqp b hqb)] at h
      exact (if_pos rfl).trans h
    | false =>
      cases hpb : p b with
      | true =>
        rw [hpb, if_pos rfl, Option.some.injEq] at h
        rw [h, ha] at hqb
        cases hqb
      | false =>
        rw [hpb, if_neg Bool.false_ne_true] at h
        rw [if_neg Bool.false_ne_true]
        exact ih h

end LastWhere

section LastOfEach

variable {α : Type u} {κ : Type v} [DecidableEq κ] {key : α → κ} {as : List α} {a : α}

/-- Of the elements with one key the last remains. -/
def lastOfEach (key : α → κ) : List α → List α
  | [] => []
  | a :: as => if key a ∈ as.map key then lastOfEach key as else a :: lastOfEach key as

theorem lastOfEach_sublist (key : α → κ) (as : List α) : (lastOfEach key as).Sublist as := by
  induction as with
  | nil => exact .slnil
  | cons a as ih =>
    rw [lastOfEach]
    split
    · exact ih.cons a
    · exact ih.cons_cons a

theorem mem_lastOfEach : a ∈ lastOfEach key as ↔ lastWhere (fun a' => key a' = key a) as = some a := by
  induction as with
  | nil => simp [lastOfEach, lastWhere]
  | cons b as ih =>
    have hcons := lastWhere_append (fun a' => decide (key a' = key a)) [b] as
    rw [List.singleton_append] at hcons
    rw [lastOfEach, hcons]
    cases hlast : lastWhere (fun a' => decide (key a' = key a)) as with
    | some a' =>
      rw [hlast] at ih
      have ha' := lastWhere_some hlast
      split
      · exact ih
      · next hnew =>
        rw [List.mem_cons, ih, Option.some_or]
        refine or_iff_right ?_
        rintro rfl
        exact hnew (List.mem_map.2 ⟨a', ha'.2, of_decide_eq_true ha'.1⟩)
    | none =>
      rw [hlast] at ih
      have hnone : key a ∉ as.map key := by
        rw [List.mem_map]
        rintro ⟨a', hmem, hkey⟩
        exact of_decide_eq_false (lastWhere_eq_none.1 hlast a' hmem) hkey
      rw [Option.none_or]
      by_cases hb : b = a
      · subst hb
        rw [if_neg hnone]
        simp [lastWhere]
      · have hmem : a ∈ (if key b ∈ as.map key then lastOfEach key as else b :: lastOfEach key as) ↔
            a ∈ lastOfEach key as := by
          split
          · exact Iff.rfl
          · rw [List.mem_cons]
            exact or_iff_right (Ne.symm hb)
        rw [hmem, ih]
        simp [lastWhere, hb]

theorem nodup_lastOfEach (key : α → κ) (as : List α) : ((lastOfEach key as).map key).Nodup := by
  induction as with
  | nil => exact List.nodup_nil
  | cons a as ih =>
    rw [lastOfEach]
    split
    · exact ih
    · next hnew =>
      rw [List.map_cons, List.nodup_cons]
      exact ⟨fun hmem => hnew (((lastOfEach_sublist key as).map key).subset hmem), ih⟩

/-- Nothing of a kind is left out exactly if no key of the kind comes again. -/
theorem filter_lastOfEach_eq_iff (p : α → Bool) :
    (lastOfEach key as).filter p = as.filter p ↔
      ∀ before a after, as = before ++ a :: after → p a = true → key a ∉ after.map key := by
  induction as with
  | nil => simp [lastOfEach]
  | cons b as ih =>
    have hsplit : (∀ before a after, b :: as = before ++ a :: after → p a = true → key a ∉ after.map key) ↔
        (p b = true → key b ∉ as.map key) ∧
          ∀ before a after, as = before ++ a :: after → p a = true → key a ∉ after.map key := by
      constructor
      · exact fun h => ⟨h [] b as rfl, fun before a after hsplit => h (b :: before) a after (by rw [hsplit]; rfl)⟩
      · rintro ⟨hb, h⟩ before a after hsplit
        cases before with
        | nil =>
          obtain ⟨rfl, rfl⟩ := List.cons.inj hsplit
          exact hb
        | cons c before => exact h before a after (List.cons.inj hsplit).2
    rw [hsplit, ← ih, lastOfEach]
    split
    · next hagain =>
      cases hp : p b with
      | true =>
        rw [List.filter_cons_of_pos hp]
        have hle := ((lastOfEach_sublist key as).filter p).length_le
        constructor
        · intro heq
          have hlength := congrArg List.length heq
          rw [List.length_cons] at hlength
          omega
        · exact fun h => absurd hagain (h.1 rfl)
      | false =>
        rw [List.filter_cons_of_neg (by simp [hp])]
        simp
    · next hnew =>
      rw [List.filter_cons, List.filter_cons]
      split
      · simp [hnew]
      · simp [hnew]

end LastOfEach

/-! ## Scans -/

variable {α : Type u}

/-- What is kept when `a` comes. -/
def keepGreater (gt : α → α → Bool) (kept : Option α) (a : α) : Option α :=
  match kept with
  | none => some a
  | some b => if gt a b then some a else some b

/-- What a scan keeps in the end. -/
def scan (gt : α → α → Bool) (as : List α) : Option α := as.foldl (keepGreater gt) none

/-- Nothing in the list is greater. -/
def Unbeaten (gt : α → α → Bool) (as : List α) (b : α) : Prop := ∀ a ∈ as, gt a b = false

variable {gt : α → α → Bool} {as : List α} {a b : α}

theorem scan_concat (gt : α → α → Bool) (as : List α) (a : α) :
    scan gt (as ++ [a]) = keepGreater gt (scan gt as) a := by
  rw [scan, List.foldl_append]
  rfl

theorem mem_of_scan (h : scan gt as = some b) : b ∈ as := by
  induction as using List.reverseRecOn with
  | nil => cases h
  | append_singleton as a ih =>
    rw [scan_concat] at h
    unfold keepGreater at h
    split at h
    · rw [← Option.some.inj h]
      simp
    · next kept hkept =>
      split at h
      · rw [← Option.some.inj h]
        simp
      · rw [h] at hkept
        exact List.mem_append_left _ (ih hkept)

theorem scan_eq_none_iff : scan gt as = none ↔ as = [] := by
  constructor
  · intro h
    cases as using List.reverseRecOn with
    | nil => rfl
    | append_singleton as a =>
      rw [scan_concat] at h
      unfold keepGreater at h
      split at h
      · cases h
      · split at h <;> cases h
  · rintro rfl
    rfl

/-- What nothing exceeds is kept. -/
theorem foldl_keepGreater (h : Unbeaten gt as b) : as.foldl (keepGreater gt) (some b) = some b := by
  induction as with
  | nil => rfl
  | cons a as ih =>
    rw [List.foldl_cons, keepGreater, h a (List.mem_cons_self ..), if_neg Bool.false_ne_true]
    exact ih fun a' hmem => h a' (List.mem_cons_of_mem _ hmem)

/-- From what was kept before it, an element takes over or that stays. -/
theorem scan_append_cons {before after : List α} (hafter : Unbeaten gt after b)
    (hbefore : ∀ kept, scan gt before = some kept → gt b kept = true) : scan gt (before ++ b :: after) = some b := by
  rw [scan, List.foldl_append, List.foldl_cons]
  have htakes : keepGreater gt (scan gt before) b = some b := by
    unfold keepGreater
    split
    · rfl
    · next kept hkept => rw [if_pos (hbefore kept hkept)]
  exact (congrArg (after.foldl (keepGreater gt)) htakes).trans (foldl_keepGreater hafter)

/-- If one element that nothing exceeds is greater than all that something
exceeds, the scan ends on an element that nothing exceeds. -/
theorem scan_unbeaten (ha : a ∈ as) (hunbeaten : Unbeaten gt as a)
    (hothers : ∀ a' ∈ as, Unbeaten gt as a' ∨ gt a a' = true) : ∀ b, scan gt as = some b → Unbeaten gt as b := by
  obtain ⟨before, after, rfl⟩ := List.append_of_mem ha
  have hafter : ∀ {b : α}, Unbeaten gt (before ++ a :: after) b → Unbeaten gt after b := fun h a' hmem =>
    h a' (List.mem_append_right _ (List.mem_cons_of_mem _ hmem))
  intro b hb
  by_cases hbefore : ∀ kept, scan gt before = some kept → gt a kept = true
  · rw [scan_append_cons (hafter hunbeaten) hbefore] at hb
    exact Option.some.inj hb ▸ hunbeaten
  · simp only [not_forall, Bool.not_eq_true] at hbefore
    obtain ⟨kept, hkept, hle⟩ := hbefore
    have hmem := List.mem_append_left (a :: after) (mem_of_scan hkept)
    have hstays : Unbeaten gt (before ++ a :: after) kept :=
      (hothers kept hmem).resolve_right (by rw [hle]; decide)
    have hfold : scan gt (before ++ a :: after) = (a :: after).foldl (keepGreater gt) (scan gt before) :=
      List.foldl_append ..
    rw [hfold, hkept, foldl_keepGreater fun a' ha' => hstays a' (List.mem_append_right _ ha')] at hb
    exact Option.some.inj hb ▸ hstays

/-- Scanning images is scanning with the relation of the images. -/
theorem scan_map {β : Type v} (gt : β → β → Bool) (f : α → β) (as : List α) :
    scan gt (as.map f) = (scan (fun a b => gt (f a) (f b)) as).map f := by
  induction as using List.reverseRecOn with
  | nil => rfl
  | append_singleton as a ih =>
    rw [List.map_append, List.map_singleton, scan_concat, scan_concat, ih]
    cases scan (fun a b => gt (f a) (f b)) as with
    | none => rfl
    | some b =>
      rw [Option.map_some, keepGreater, keepGreater, apply_ite (Option.map f)]
      rfl

section Key

variable {β : Type v} [LinearOrder β] {key : α → β}

/-- In the order of a key, the scan passes smaller elements before the one it ends
on, and no greater one after it. -/
theorem split_of_scan (hgt : ∀ a ∈ as, ∀ b ∈ as, gt a b = true ↔ key b < key a) (h : scan gt as = some b) :
    ∃ before after, as = before ++ b :: after ∧ (∀ a ∈ before, key a < key b) ∧ ∀ a ∈ after, key a ≤ key b := by
  induction as using List.reverseRecOn generalizing b with
  | nil => cases h
  | append_singleton as a ih =>
    have hprefix : ∀ a ∈ as, ∀ b ∈ as, gt a b = true ↔ key b < key a := fun a ha b hb =>
      hgt a (List.mem_append_left _ ha) b (List.mem_append_left _ hb)
    rw [scan_concat] at h
    unfold keepGreater at h
    split at h
    · next hnone =>
      rw [scan_eq_none_iff.1 hnone, ← Option.some.inj h]
      exact ⟨[], [], rfl, by simp, by simp⟩
    · next kept hkept =>
      obtain ⟨before, after, hsplit, hlt, hle⟩ := ih hprefix hkept
      have hkeptmem := List.mem_append_left [a] (mem_of_scan hkept)
      have hiff := hgt a (by simp) kept hkeptmem
      split at h
      · next hgreater =>
        rw [← Option.some.inj h]
        rw [hiff] at hgreater
        refine ⟨as, [], rfl, fun a' ha' => ?_, by simp⟩
        rw [hsplit, List.mem_append, List.mem_cons] at ha'
        rcases ha' with ha' | rfl | ha'
        · exact (hlt a' ha').trans hgreater
        · exact hgreater
        · exact (hle a' ha').trans_lt hgreater
      · next hnot =>
        rw [← Option.some.inj h]
        rw [hiff, not_lt] at hnot
        refine ⟨before, after ++ [a], by rw [hsplit, List.append_assoc, List.cons_append], hlt, fun a' ha' => ?_⟩
        rw [List.mem_append, List.mem_singleton] at ha'
        rcases ha' with ha' | rfl
        · exact hle a' ha'
        · exact hnot

/-- In the order of a key, the scan ends on the first of the greatest. -/
theorem scan_eq_some_iff (hgt : ∀ a ∈ as, ∀ b ∈ as, gt a b = true ↔ key b < key a) :
    scan gt as = some b ↔
      ∃ before after, as = before ++ b :: after ∧ (∀ a ∈ before, key a < key b) ∧ ∀ a ∈ after, key a ≤ key b := by
  constructor
  · exact split_of_scan hgt
  · rintro ⟨before, after, rfl, hlt, hle⟩
    have hb : b ∈ before ++ b :: after := by simp
    refine scan_append_cons (fun a ha => ?_) fun kept hkept => ?_
    · rw [← Bool.not_eq_true, hgt a (by simp [ha]) b hb, not_lt]
      exact hle a ha
    · have hmem := mem_of_scan hkept
      exact (hgt b hb kept (by simp [hmem])).2 (hlt kept hmem)

/-- If the key is greatest at one element only, that is the one. -/
theorem scan_eq_some_of_lt (hgt : ∀ a ∈ as, ∀ b ∈ as, gt a b = true ↔ key b < key a) (hb : b ∈ as)
    (hlt : ∀ a ∈ as, a ≠ b → key a < key b) : scan gt as = some b := by
  classical
  obtain ⟨before, after, rfl, hbefore⟩ := List.eq_append_cons_of_mem hb
  refine (scan_eq_some_iff hgt).2 ⟨before, after, rfl, fun a ha => ?_, fun a ha => ?_⟩
  · exact hlt a (by simp [ha]) (by rintro rfl; exact hbefore ha)
  · by_cases hab : a = b
    · rw [hab]
    · exact (hlt a (by simp [ha]) hab).le

/-- A list has an element whose key is the greatest. -/
theorem exists_greatest (key : α → β) (h : as ≠ []) : ∃ b ∈ as, ∀ a ∈ as, key a ≤ key b := by
  have hgt : ∀ a ∈ as, ∀ b ∈ as, decide (key b < key a) = true ↔ key b < key a := fun _ _ _ _ => decide_eq_true_iff
  cases hscan : scan (fun a b => decide (key b < key a)) as with
  | none => exact absurd (scan_eq_none_iff.1 hscan) h
  | some b =>
    obtain ⟨before, after, rfl, hlt, hle⟩ := split_of_scan hgt hscan
    refine ⟨b, by simp, fun a hmem => ?_⟩
    rw [List.mem_append, List.mem_cons] at hmem
    rcases hmem with hmem | rfl | hmem
    · exact (hlt a hmem).le
    · exact le_refl _
    · exact hle a hmem

end Key

end Ochestrate
