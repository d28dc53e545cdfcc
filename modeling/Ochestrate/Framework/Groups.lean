import Mathlib.Data.List.Forall2
import Mathlib.Data.List.Perm.Basic

/-!
# Lists that are enumerated in any order

Several lists one after the other, each in an order of its own. The last element
that satisfies a predicate is in the last list that has any (`lastGroup`), and
every element of that group is the last in some order (`exists_perm_last`).
`last_independent_iff` says when what is made of it does not depend on the
orders.
-/

namespace Ochestrate

universe u v

variable {α : Type u} {β : Type v} {p : α → Bool} {xss xss' : List (List α)}

/-- The elements that satisfy `p` in the last list that has any. -/
def lastGroup (p : α → Bool) : List (List α) → List α
  | [] => []
  | xs :: xss =>
    match lastGroup p xss with
    | [] => xs.filter p
    | group => group

theorem lastGroup_cons_of_nil (h : lastGroup p xss = []) (xs : List α) : lastGroup p (xs :: xss) = xs.filter p := by
  simp only [lastGroup, h]

theorem lastGroup_cons_of_ne (h : lastGroup p xss ≠ []) (xs : List α) : lastGroup p (xs :: xss) = lastGroup p xss := by
  simp only [lastGroup]

/-- The last element is that of the last group. -/
theorem getLast?_filter_flatten (p : α → Bool) (xss : List (List α)) :
    (xss.flatten.filter p).getLast? = (lastGroup p xss).getLast? := by
  induction xss with
  | nil => rfl
  | cons xs xss ih =>
    rw [List.flatten_cons, List.filter_append, List.getLast?_append, ih]
    by_cases hnil : lastGroup p xss = []
    · rw [lastGroup_cons_of_nil hnil, hnil]
      rfl
    · rw [lastGroup_cons_of_ne hnil, List.getLast?_eq_some_getLast hnil]
      rfl

theorem mem_of_mem_lastGroup {x : α} (h : x ∈ lastGroup p xss) : p x = true ∧ ∃ xs ∈ xss, x ∈ xs := by
  induction xss with
  | nil => cases h
  | cons xs xss ih =>
    by_cases hnil : lastGroup p xss = []
    · rw [lastGroup_cons_of_nil hnil] at h
      have hmem := List.mem_filter.1 h
      exact ⟨hmem.2, xs, List.mem_cons_self .., hmem.1⟩
    · rw [lastGroup_cons_of_ne hnil] at h
      obtain ⟨hp, ys, hys, hmem⟩ := ih h
      exact ⟨hp, ys, List.mem_cons_of_mem xs hys, hmem⟩

/-- In other orders the last group has the same elements. -/
theorem lastGroup_perm (h : List.Forall₂ List.Perm xss xss') : (lastGroup p xss).Perm (lastGroup p xss') := by
  induction h with
  | nil => exact List.Perm.refl []
  | @cons xs ys xss yss hperm _ ih =>
    by_cases hnil : lastGroup p xss = []
    · have hnil' : lastGroup p yss = [] := List.Perm.nil_eq (hnil ▸ ih) ▸ rfl
      rw [lastGroup_cons_of_nil hnil, lastGroup_cons_of_nil hnil']
      exact hperm.filter p
    · have hne : lastGroup p yss ≠ [] := fun heq => hnil (List.Perm.eq_nil (heq ▸ ih))
      rw [lastGroup_cons_of_ne hnil, lastGroup_cons_of_ne hne]
      exact ih

/-- Each element of the last group is the last in some order. -/
theorem exists_perm_last {x : α} (h : x ∈ lastGroup p xss) :
    ∃ xss', List.Forall₂ List.Perm xss xss' ∧ (lastGroup p xss').getLast? = some x := by
  induction xss with
  | nil => cases h
  | cons xs xss ih =>
    by_cases hnil : lastGroup p xss = []
    · rw [lastGroup_cons_of_nil hnil] at h
      obtain ⟨hmem, hp⟩ := List.mem_filter.1 h
      obtain ⟨before, after, rfl⟩ := List.append_of_mem hmem
      refine ⟨(before ++ after ++ [x]) :: xss, .cons ?_ (List.forall₂_same.2 fun _ _ => List.Perm.refl _), ?_⟩
      · rw [List.append_assoc]
        exact (List.perm_append_singleton x after).symm.append_left before
      · rw [lastGroup_cons_of_nil hnil, List.filter_append, List.filter_cons_of_pos hp, List.filter_nil,
          List.getLast?_concat]
    · rw [lastGroup_cons_of_ne hnil] at h
      obtain ⟨xss', hperm, hlast⟩ := ih h
      refine ⟨xs :: xss', .cons (List.Perm.refl xs) hperm, ?_⟩
      have hne : lastGroup p xss' ≠ [] := fun heq => by rw [heq] at hlast; cases hlast
      rw [lastGroup_cons_of_ne hne, hlast]

/-- What is made of the last element is the same in all orders exactly if it is
the same for all elements of the last group. -/
theorem last_independent_iff (p : α → Bool) (f : α → β) (xss : List (List α)) :
    (∀ xss', List.Forall₂ List.Perm xss xss' →
        (xss'.flatten.filter p).getLast?.map f = (xss.flatten.filter p).getLast?.map f) ↔
      ∀ x ∈ lastGroup p xss, ∀ y ∈ lastGroup p xss, f x = f y := by
  simp only [getLast?_filter_flatten]
  constructor
  · intro h
    have hlast : ∀ x ∈ lastGroup p xss, some (f x) = (lastGroup p xss).getLast?.map f := by
      intro x hx
      obtain ⟨xss', hperm, hlast⟩ := exists_perm_last hx
      rw [← h xss' hperm, hlast]
      rfl
    intro x hx y hy
    exact Option.some.inj ((hlast x hx).trans (hlast y hy).symm)
  · intro h xss' hperm
    have hgroup := lastGroup_perm (p := p) hperm
    cases hlast : (lastGroup p xss).getLast? with
    | none =>
      have hnil : lastGroup p xss = [] := List.getLast?_eq_none_iff.1 hlast
      rw [hnil] at hgroup
      rw [List.Perm.eq_nil hgroup.symm]
      rfl
    | some x =>
      cases hlast' : (lastGroup p xss').getLast? with
      | none =>
        have hnil : lastGroup p xss' = [] := List.getLast?_eq_none_iff.1 hlast'
        rw [hnil] at hgroup
        rw [List.Perm.eq_nil hgroup] at hlast
        cases hlast
      | some y =>
        have hx := List.mem_of_getLast? hlast
        have hy := hgroup.mem_iff.2 (List.mem_of_getLast? hlast')
        exact congrArg some (h y hy x hx)

end Ochestrate
