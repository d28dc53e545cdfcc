import Mathlib.Algebra.Order.Field.Rat
import Mathlib.Tactic.Linarith

/-!
# Items in batches

Items are submitted one by one, and flushed together (`Batched`). The fraction
of the last batch is that of all flushed items, after every flush, exactly if
the batches have one fraction: `uniform_flush_iff` is the step.
-/

namespace Ochestrate

universe u

variable {α : Type u}

section Fractions

variable (p : α → Bool)

/-- The fraction of elements that satisfy `p`. -/
def fraction (xs : List α) : Rat := xs.countP p / xs.length

/-- All lists have the same fraction. -/
def Uniform (xss : List (List α)) : Prop := ∀ xs ∈ xss, ∀ ys ∈ xss, fraction p xs = fraction p ys

variable {p} {xs ys last : List α} {xss : List (List α)}

theorem length_ne_zero (h : xs ≠ []) : (xs.length : Rat) ≠ 0 := Nat.cast_ne_zero.2 (by simpa using h)

/-- The fraction of the last part is that of the whole exactly if it is that of
the first part. -/
theorem fraction_append_eq_iff (hxs : xs ≠ []) (hys : ys ≠ []) :
    fraction p ys = fraction p (xs ++ ys) ↔ fraction p xs = fraction p ys := by
  have hboth : (xs.length : Rat) + ys.length ≠ 0 := by
    rw [← Nat.cast_add, ← List.length_append]
    exact length_ne_zero (List.append_ne_nil_of_left_ne_nil hxs ys)
  rw [fraction, fraction, fraction, List.countP_append, List.length_append, Nat.cast_add, Nat.cast_add,
    div_eq_div_iff (length_ne_zero hys) hboth, div_eq_div_iff (length_ne_zero hxs) (length_ne_zero hys)]
  constructor
  · intro h
    linarith
  · intro h
    linarith

/-- Lists of one fraction have it together. -/
theorem fraction_flatten {r : Rat} (hne : xss ≠ []) (hlists : ∀ xs ∈ xss, xs ≠ []) (h : ∀ xs ∈ xss, fraction p xs = r) :
    fraction p xss.flatten = r := by
  induction xss with
  | nil => exact absurd rfl hne
  | cons xs xss ih =>
    rw [List.flatten_cons]
    by_cases hxss : xss = []
    · rw [hxss, List.flatten_nil, List.append_nil]
      exact h xs (List.mem_cons_self ..)
    · have hrest := ih hxss (fun ys hys => hlists ys (List.mem_cons_of_mem xs hys)) fun ys hys =>
        h ys (List.mem_cons_of_mem xs hys)
      have hflat : xss.flatten ≠ [] := by
        obtain ⟨ys, hys⟩ := List.exists_mem_of_ne_nil xss hxss
        intro hnil
        exact hlists ys (List.mem_cons_of_mem xs hys) (List.flatten_eq_nil_iff.1 hnil ys hys)
      have hxs := h xs (List.mem_cons_self ..)
      rw [← (fraction_append_eq_iff (hlists xs (List.mem_cons_self ..)) hflat).2 (hxs.trans hrest.symm), hrest]

/-- One more list has the same fraction exactly if it has that of all together. -/
theorem uniform_concat_iff (hlists : ∀ xs ∈ xss ++ [last], xs ≠ []) :
    Uniform p (xss ++ [last]) ↔ Uniform p xss ∧ fraction p last = fraction p (xss ++ [last]).flatten := by
  have hmem : last ∈ xss ++ [last] := List.mem_append_right xss (List.mem_singleton_self last)
  constructor
  · intro h
    refine ⟨fun xs hxs ys hys => h xs (List.mem_append_left _ hxs) ys (List.mem_append_left _ hys), ?_⟩
    exact (fraction_flatten (List.ne_nil_of_mem hmem) hlists fun xs hxs => h xs hxs last hmem).symm
  · intro ⟨h, hlast⟩
    have hall : ∀ xs ∈ xss ++ [last], fraction p xs = fraction p last := by
      intro xs hxs
      rcases List.mem_append.1 hxs with hxs | hxs
      · have hfirst : fraction p xss.flatten = fraction p xs :=
          fraction_flatten (List.ne_nil_of_mem hxs) (fun ys hys => hlists ys (List.mem_append_left _ hys))
            fun ys hys => h ys hys xs hxs
        have hflat : xss.flatten ≠ [] := fun hnil =>
          hlists xs (List.mem_append_left _ hxs) (List.flatten_eq_nil_iff.1 hnil xs hxs)
        rw [List.flatten_concat, fraction_append_eq_iff hflat (hlists last hmem), hfirst] at hlast
        exact hlast
      · rw [List.mem_singleton.1 hxs]
    exact fun xs hxs ys hys => (hall xs hxs).trans (hall ys hys).symm

end Fractions

/-- The batches that were flushed, and the items since. -/
structure Batched (α : Type u) where
  flushed : List (List α)
  pending : List α
  flushed_ne : ∀ batch ∈ flushed, batch ≠ []

namespace Batched

def empty : Batched α := ⟨[], [], by simp⟩

def submit (s : Batched α) (x : α) : Batched α := { s with pending := s.pending ++ [x] }

/-- The pending items become a batch, if there are any. -/
def flush (s : Batched α) : Batched α :=
  if h : s.pending = [] then s
  else
    { flushed := s.flushed ++ [s.pending]
      pending := []
      flushed_ne := fun batch hbatch => (List.mem_append.1 hbatch).elim (s.flushed_ne batch) fun hlast =>
        List.mem_singleton.1 hlast ▸ h }

/-- All items, in order. -/
def items (s : Batched α) : List α := s.flushed.flatten ++ s.pending

theorem items_submit (s : Batched α) (x : α) : (s.submit x).items = s.items ++ [x] :=
  (List.append_assoc s.flushed.flatten s.pending [x]).symm

theorem flush_of_nil {s : Batched α} (h : s.pending = []) : s.flush = s := dif_pos h

theorem flushed_flush {s : Batched α} (h : s.pending ≠ []) : s.flush.flushed = s.flushed ++ [s.pending] := by
  rw [flush, dif_neg h]

theorem pending_flush (s : Batched α) : s.flush.pending = [] := by
  unfold flush
  split
  · assumption
  · rfl

theorem flatten_flush (s : Batched α) : s.flush.flushed.flatten = s.items := by
  by_cases h : s.pending = []
  · rw [flush_of_nil h, items, h, List.append_nil]
  · rw [flushed_flush h, List.flatten_concat, items]

theorem items_flush (s : Batched α) : s.flush.items = s.items := by
  rw [items, flatten_flush, pending_flush, List.append_nil]

/-- The last batch has the fraction of all flushed items. -/
def LastEven (p : α → Bool) (s : Batched α) : Prop :=
  ∀ last ∈ s.flushed.getLast?, fraction p last = fraction p s.flushed.flatten

theorem lastEven_of_items_eq_nil {p : α → Bool} {s : Batched α} (h : s.items = []) : s.LastEven p := by
  intro last hlast
  have hflat : s.flushed.flatten = [] := (List.append_eq_nil_iff.1 h).1
  have hmem : last ∈ s.flushed := List.mem_of_getLast? hlast
  exact absurd (List.flatten_eq_nil_iff.1 hflat last hmem) (s.flushed_ne last hmem)

/-- A flush keeps one fraction exactly if the last batch then has that of all. -/
theorem uniform_flush_iff (p : α → Bool) (s : Batched α) :
    Uniform p s.flush.flushed ↔ Uniform p s.flushed ∧ s.flush.LastEven p := by
  have hconcat : ∀ {s : Batched α} {batches : List (List α)} {last : List α}, s.flushed = batches ++ [last] →
      (Uniform p s.flushed ↔ Uniform p batches ∧ s.LastEven p) := by
    intro s batches last hs
    have hne := s.flushed_ne
    rw [hs] at hne
    rw [LastEven, hs, uniform_concat_iff hne, List.getLast?_concat]
    simp only [Option.mem_some_iff, forall_eq']
  by_cases h : s.pending = []
  · rw [flush_of_nil h]
    rcases List.eq_nil_or_concat s.flushed with hnil | ⟨batches, last, hs⟩
    · simp [LastEven, hnil]
    · rw [List.concat_eq_append] at hs
      have hiff := hconcat hs
      exact ⟨fun hu => ⟨hu, (hiff.1 hu).2⟩, And.left⟩
  · exact hconcat (flushed_flush h)

end Batched

end Ochestrate
