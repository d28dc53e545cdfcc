import Mathlib.Data.List.Infix

/-!
# Labels and their suffixes

A list is cut into labels at a separator. Its last labels are those of another
list exactly if it is that list or ends with the separator and that list
(`labels_suffix_iff`), whatever the labels are; a map that keeps the separator
apart maps label by label (`splitOn_map`).
-/

namespace Ochestrate

universe u

variable {α : Type u}

theorem intercalate_append (sep : List α) {xss yss : List (List α)} (hxss : xss ≠ []) (hyss : yss ≠ []) :
    sep.intercalate (xss ++ yss) = sep.intercalate xss ++ sep ++ sep.intercalate yss := by
  induction xss with
  | nil => exact absurd rfl hxss
  | cons xs xss ih =>
    cases xss with
    | nil => rw [List.singleton_append, List.intercalate_cons_of_ne_nil hyss, List.intercalate_singleton]
    | cons xs' xss =>
      have hne : xs' :: xss ≠ [] := List.cons_ne_nil _ _
      rw [List.cons_append, List.intercalate_cons_of_ne_nil (List.append_ne_nil_of_left_ne_nil hne yss), ih hne,
        List.intercalate_cons_of_ne_nil hne]
      simp only [List.append_assoc]

variable [DecidableEq α] {dot : α}

theorem splitOn_injective {xs ys : List α} (h : xs.splitOn dot = ys.splitOn dot) : xs = ys := by
  have hxs : [dot].intercalate (xs.splitOn dot) = xs := List.intercalate_splitOn dot
  rw [← hxs, h, List.intercalate_splitOn]

/-- The labels of a list are the last of another one's. -/
theorem labels_suffix_iff (xs ys : List α) : xs.splitOn dot <:+ ys.splitOn dot ↔ xs = ys ∨ dot :: xs <:+ ys := by
  constructor
  · intro ⟨first, hfirst⟩
    by_cases hne : first = []
    · rw [hne, List.nil_append] at hfirst
      exact .inl (splitOn_injective hfirst)
    · right
      have hjoined := intercalate_append [dot] hne (List.splitOn_ne_nil dot xs)
      rw [hfirst, List.intercalate_splitOn, List.intercalate_splitOn, List.append_assoc] at hjoined
      exact ⟨[dot].intercalate first, hjoined.symm⟩
  · rintro (rfl | ⟨first, rfl⟩)
    · exact List.suffix_rfl
    · rw [List.splitOn_append_cons_self]
      exact List.suffix_append ..

/-- A map under which nothing else becomes the separator. -/
theorem splitOn_map {f : α → α} (h : ∀ x, f x = dot ↔ x = dot) (xs : List α) :
    (xs.map f).splitOn dot = (xs.splitOn dot).map (List.map f) := by
  induction xs with
  | nil => rfl
  | cons x xs ih =>
    rw [List.map_cons, List.splitOn_cons_eq_if_modifyHead, List.splitOn_cons_eq_if_modifyHead, ih]
    by_cases hx : x = dot
    · have hfx : f x = dot := (h x).2 hx
      rw [if_pos (beq_iff_eq.2 hfx), if_pos (beq_iff_eq.2 hx)]
      rfl
    · have hfx : f x ≠ dot := fun hfx => hx ((h x).1 hfx)
      cases hsplit : xs.splitOn dot with
      | nil => exact absurd hsplit (List.splitOn_ne_nil dot xs)
      | cons label labels => simp [hx, hfx]

end Ochestrate
