import Mathlib.Data.List.Basic

/-!
# Slices of a fixed size

`slices k xs` cuts a list at every multiple of `k`. In order the slices are the
list (`flatten_slices`); slice `i` is there if the list goes beyond `i * k`
(`getElem?_slices`), and is full if there is one after it.
-/

namespace Ochestrate

universe u

variable {α : Type u} {k : Nat}

/-- `[xs[i : i + k] for i in range(0, len(xs), k)]` -/
def slices (k : Nat) (xs : List α) : List (List α) :=
  (List.range ((xs.length + k - 1) / k)).map fun i => (xs.drop (i * k)).take k

theorem length_slices (k : Nat) (xs : List α) : (slices k xs).length = (xs.length + k - 1) / k := by
  rw [slices, List.length_map, List.length_range]

theorem lt_length_slices_iff (h : 1 ≤ k) (xs : List α) (i : Nat) : i < (slices k xs).length ↔ i * k < xs.length := by
  rw [length_slices, ← Nat.succ_le_iff, Nat.le_div_iff_mul_le h, Nat.succ_mul]
  omega

theorem getElem?_slices {xs slice : List α} {i : Nat} (hslice : (slices k xs)[i]? = some slice) :
    i < (slices k xs).length ∧ slice = (xs.drop (i * k)).take k := by
  have hlt := (List.getElem?_eq_some_iff.1 hslice).1
  refine ⟨hlt, ?_⟩
  rw [slices, List.getElem?_map, List.getElem?_range (by rwa [length_slices] at hlt), Option.map_some] at hslice
  exact (Option.some.inj hslice).symm

/-- No slice is empty or too long, and all but the last are full. -/
theorem length_of_getElem?_slices (h : 1 ≤ k) {xs slice : List α} {i : Nat} (hslice : (slices k xs)[i]? = some slice) :
    1 ≤ slice.length ∧ slice.length ≤ k ∧ (i + 1 < (slices k xs).length → slice.length = k) := by
  obtain ⟨hlt, rfl⟩ := getElem?_slices hslice
  rw [lt_length_slices_iff h] at hlt
  rw [lt_length_slices_iff h, List.length_take, List.length_drop, Nat.succ_mul]
  omega

/-- The first slices are the first part of the list. -/
theorem flatten_map_range (k : Nat) (xs : List α) (n : Nat) :
    ((List.range n).map fun i => (xs.drop (i * k)).take k).flatten = xs.take (n * k) := by
  induction n with
  | zero => rw [Nat.zero_mul, List.take_zero]; rfl
  | succ n ih =>
    rw [List.range_succ, List.map_append, List.flatten_append, ih, List.map_singleton, List.flatten_singleton,
      Nat.succ_mul, List.take_add]

theorem flatten_slices (h : 1 ≤ k) (xs : List α) : (slices k xs).flatten = xs := by
  have hall : xs.length ≤ (xs.length + k - 1) / k * k := by
    have hlast := lt_length_slices_iff h xs ((xs.length + k - 1) / k)
    rw [length_slices] at hlast
    omega
  rw [slices, flatten_map_range, List.take_of_length_le hall]

end Ochestrate
