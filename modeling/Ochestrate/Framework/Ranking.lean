import Mathlib.Data.List.Sort

/-!
# The best of a list

A place of a list is an element with its position. `Ahead` orders places by
falling score, and by position where scores are equal; `Top` says that some
places are the best of those that satisfy a condition, as many as a limit
leaves. `exists_top` says that a stable sort, cut at the limit, gives them.
-/

namespace Ochestrate

universe u

variable {α : Type u} (score : α → Nat)

/-- A higher score, or the same and an earlier position. -/
def Ahead (place place' : α × Nat) : Prop :=
  score place'.1 < score place.1 ∨ score place'.1 = score place.1 ∧ place.2 < place'.2

/-- The places of the `limit` best elements of `xs` that satisfy `p`, the best first. -/
structure Top (p : α → Bool) (limit : Nat) (xs : List α) (places : List (α × Nat)) : Prop where
  mem : ∀ place ∈ places, place ∈ xs.zipIdx ∧ p place.1 = true
  ordered : places.Pairwise (Ahead score)
  length_eq : places.length = min limit (xs.countP p)
  best : ∀ place ∈ xs.zipIdx, p place.1 = true → place ∉ places → ∀ place' ∈ places, Ahead score place' place

/-- An element that is left out has no higher score than one of the best. -/
theorem Top.score_le {p : α → Bool} {limit : Nat} {xs : List α} {places : List (α × Nat)}
    (h : Top score p limit xs places) {x y : α} (hx : x ∈ xs) (hp : p x = true) (hout : x ∉ places.map Prod.fst)
    (hy : y ∈ places.map Prod.fst) : score x ≤ score y := by
  obtain ⟨i, hi⟩ := List.getElem?_of_mem hx
  obtain ⟨place, hplace, rfl⟩ := List.mem_map.1 hy
  have hahead := h.best (x, i) (List.mem_zipIdx_iff_getElem?.2 hi) hp
    (fun hmem => hout (List.mem_map_of_mem hmem)) place hplace
  rcases hahead with hlt | hle
  · exact hlt.le
  · exact hle.1.le

/-- The higher score comes first. -/
def scoreLE (x y : α) : Bool := score y ≤ score x

theorem scoreLE_trans (x y z : α) (h : scoreLE score x y = true) (h' : scoreLE score y z = true) :
    scoreLE score x z = true := by
  simp only [scoreLE, decide_eq_true_eq] at h h' ⊢
  omega

theorem scoreLE_total (x y : α) : (scoreLE score x y || scoreLE score y x) = true := by
  simp only [scoreLE, Bool.or_eq_true, decide_eq_true_eq]
  omega

/-- The stable order, read as scores and positions. -/
theorem of_zipIdxLE {β : Type u} {f : β → Nat} {e e' : β × Nat} (h : List.zipIdxLE (scoreLE f) e e' = true) :
    f e'.1 ≤ f e.1 ∧ (f e'.1 = f e.1 → e.2 ≤ e'.2) := by
  unfold List.zipIdxLE scoreLE at h
  split at h
  · next hle =>
    refine ⟨of_decide_eq_true hle, fun heq => ?_⟩
    rw [if_pos (decide_eq_true (by omega))] at h
    exact of_decide_eq_true h
  · cases h

/-- Sorting places by score keeps the order of their positions. -/
theorem pairwise_ahead_mergeSort {places : List (α × Nat)} (h : places.Pairwise fun place place' => place.2 < place'.2) :
    (places.mergeSort (scoreLE fun place => score place.1)).Pairwise (Ahead score) := by
  rw [← List.mergeSort_zipIdx, List.pairwise_map]
  have hsorted := List.pairwise_mergeSort
    (List.zipIdxLE_trans (scoreLE_trans fun place : α × Nat => score place.1))
    (List.zipIdxLE_total (scoreLE_total fun place : α × Nat => score place.1)) places.zipIdx
  have hperm := List.mergeSort_perm places.zipIdx
    (List.zipIdxLE (scoreLE fun place : α × Nat => score place.1))
  have hdistinct : (places.zipIdx.mergeSort (List.zipIdxLE
      (scoreLE fun place : α × Nat => score place.1))).Pairwise fun e e' => e.2 ≠ e'.2 := by
    have hpositions : (places.zipIdx.map Prod.snd).Nodup := by
      rw [List.zipIdx_map_snd]
      exact List.nodup_range'
    exact List.pairwise_map.1 ((hperm.map Prod.snd).nodup_iff.2 hpositions)
  refine (hsorted.and hdistinct).imp_of_mem fun {e e'} he he' hboth => ?_
  obtain ⟨hle, htie⟩ := of_zipIdxLE hboth.1
  by_cases heq : score e'.1.1 = score e.1.1
  · -- Places of one score keep their order, which is that of their positions.
    have hlt : e.2 < e'.2 := by
      have hposition := htie heq
      have hne := hboth.2
      omega
    obtain ⟨hbound, hget⟩ := List.getElem?_eq_some_iff.1 (List.mem_zipIdx_iff_getElem?.1 (hperm.subset he))
    obtain ⟨hbound', hget'⟩ := List.getElem?_eq_some_iff.1 (List.mem_zipIdx_iff_getElem?.1 (hperm.subset he'))
    have hplaces := List.pairwise_iff_getElem.1 h e.2 e'.2 hbound hbound' hlt
    rw [hget, hget'] at hplaces
    exact .inr ⟨heq, hplaces⟩
  · exact .inl (by omega)

/-- The positions of a list rise. -/
theorem pairwise_zipIdx (xs : List α) : xs.zipIdx.Pairwise fun place place' => place.2 < place'.2 := by
  rw [← List.pairwise_map (f := Prod.snd) (R := (· < ·)), List.zipIdx_map_snd]
  exact List.pairwise_lt_range'

theorem map_fst_filter_zipIdx (p : α → Bool) (xs : List α) :
    (xs.zipIdx.filter fun place => p place.1).map Prod.fst = xs.filter p := by
  rw [← List.zipIdx_map_fst 0 xs, List.filter_map, List.zipIdx_map_fst]
  rfl

/-- A stable sort by score, cut at a limit, has the best. -/
theorem exists_top (p : α → Bool) (limit : Nat) (xs : List α) :
    ∃ places, Top score p limit xs places ∧
      places.map Prod.fst = ((xs.filter p).mergeSort (scoreLE score)).take limit := by
  let entries := xs.zipIdx.filter fun place => p place.1
  let sorted := entries.mergeSort (scoreLE fun place => score place.1)
  have hmem : ∀ place, place ∈ sorted ↔ place ∈ xs.zipIdx ∧ p place.1 = true := fun place => by
    rw [List.mem_mergeSort, List.mem_filter]
  have hordered : sorted.Pairwise (Ahead score) :=
    pairwise_ahead_mergeSort score ((pairwise_zipIdx xs).sublist List.filter_sublist)
  have hlength : sorted.length = xs.countP p := by
    rw [List.length_mergeSort, ← List.length_map Prod.fst, map_fst_filter_zipIdx, List.countP_eq_length_filter]
  refine ⟨sorted.take limit, ⟨fun place hplace => (hmem place).1 (List.mem_of_mem_take hplace),
    hordered.sublist (List.take_sublist limit sorted), by rw [List.length_take, hlength], ?_⟩, ?_⟩
  · intro place hplace hp hout place' hplace'
    have hsplit := hordered
    rw [← List.take_append_drop limit sorted, List.pairwise_append] at hsplit
    have hall := (hmem place).2 ⟨hplace, hp⟩
    rw [← List.take_append_drop limit sorted, List.mem_append] at hall
    exact hsplit.2.2 place' hplace' place (hall.resolve_left hout)
  · have hsorted : sorted.map Prod.fst = (entries.map Prod.fst).mergeSort (scoreLE score) :=
      List.map_mergeSort fun _ _ _ _ => rfl
    rw [List.map_take, hsorted, map_fst_filter_zipIdx]

end Ochestrate
