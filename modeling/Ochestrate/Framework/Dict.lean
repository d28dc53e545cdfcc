import Mathlib.Data.List.Nodup

/-!
# Insertion-ordered dictionaries

A `Dict κ ν` is the dictionary of a scripting language: one entry for each
key, in the order in which the keys were first set. Setting a key that is
present keeps its place (`setEntries`), so iterating over the values visits
them in the order of insertion. `get?_set` and `get?_erase` are all that a
proof about single keys needs; `mem_values` connects iteration to lookup.
-/

namespace Ochestrate

universe u v

/-- The entries in insertion order, no key twice. -/
structure Dict (κ : Type u) (ν : Type v) where
  entries : List (κ × ν)
  nodup : (entries.map Prod.fst).Nodup
  deriving DecidableEq

namespace Dict

variable {κ : Type u} {ν : Type v} [DecidableEq κ]

/-- The dictionary without entries. -/
def empty : Dict κ ν := ⟨[], List.nodup_nil⟩

/-- The value of a key. -/
def get? (d : Dict κ ν) (k : κ) : Option ν := d.entries.lookup k

/-- The keys in insertion order. -/
def keys (d : Dict κ ν) : List κ := d.entries.map Prod.fst

/-- The values in insertion order. -/
def values (d : Dict κ ν) : List ν := d.entries.map Prod.snd

/-- The entries after setting `k` to `v`: in place if `k` has an entry, at
the end otherwise. -/
def setEntries (k : κ) (v : ν) : List (κ × ν) → List (κ × ν)
  | [] => [(k, v)]
  | (l, w) :: es => if l = k then (l, v) :: es else (l, w) :: setEntries k v es

theorem keys_setEntries (k : κ) (v : ν) (es : List (κ × ν)) :
    (setEntries k v es).map Prod.fst =
      if k ∈ es.map Prod.fst then es.map Prod.fst else es.map Prod.fst ++ [k] := by
  induction es with
  | nil => rfl
  | cons e es ih =>
    obtain ⟨l, w⟩ := e
    by_cases hl : l = k
    · simp [setEntries, hl]
    · simp only [setEntries, hl, ↓reduceIte, List.map_cons, ih, List.mem_cons, Ne.symm hl, false_or]
      split <;> rfl

theorem lookup_cons_ite (l m : κ) (w : ν) (es : List (κ × ν)) :
    List.lookup l ((m, w) :: es) = if l = m then some w else es.lookup l := by
  by_cases hl : l = m
  · simp [hl]
  · rw [List.lookup_cons, beq_eq_false_iff_ne.2 hl, if_neg hl]

theorem lookup_setEntries (k l : κ) (v : ν) (es : List (κ × ν)) :
    (setEntries k v es).lookup l = if l = k then some v else es.lookup l := by
  induction es with
  | nil => rw [setEntries, lookup_cons_ite]
  | cons e es ih =>
    obtain ⟨m, w⟩ := e
    by_cases hm : m = k
    · subst hm
      simp only [setEntries, ↓reduceIte, lookup_cons_ite]
      split <;> rfl
    · simp only [setEntries, hm, ↓reduceIte, lookup_cons_ite, ih]
      by_cases hl : l = m
      · simp only [hl, ↓reduceIte, hm]
      · simp only [hl, ↓reduceIte]

/-- `d[k] = v`. -/
def set (d : Dict κ ν) (k : κ) (v : ν) : Dict κ ν where
  entries := setEntries k v d.entries
  nodup := by
    rw [keys_setEntries]
    split
    · exact d.nodup
    · rename_i hk
      exact List.nodup_append.2 ⟨d.nodup, List.nodup_singleton k, fun a ha b hb hab =>
        hk (List.mem_singleton.1 hb ▸ hab ▸ ha)⟩

/-- `d.setdefault(k, v)`. -/
def setDefault (d : Dict κ ν) (k : κ) (v : ν) : Dict κ ν :=
  if (d.get? k).isSome then d else d.set k v

/-- `d.update(pairs)`: the pairs are set one after the other. -/
def update (d : Dict κ ν) (pairs : List (κ × ν)) : Dict κ ν :=
  pairs.foldl (fun d p => d.set p.1 p.2) d

/-- `d.pop(k, None)`. -/
def erase (d : Dict κ ν) (k : κ) : Dict κ ν where
  entries := d.entries.filter (·.1 ≠ k)
  nodup := d.nodup.sublist (List.filter_sublist.map _)

/-- The entries that satisfy `p`. -/
def filter (d : Dict κ ν) (p : κ → ν → Bool) : Dict κ ν where
  entries := d.entries.filter fun e => p e.1 e.2
  nodup := d.nodup.sublist (List.filter_sublist.map _)

@[simp] theorem get?_empty (k : κ) : (empty : Dict κ ν).get? k = none := rfl

omit [DecidableEq κ] in
@[simp] theorem values_empty : (empty : Dict κ ν).values = [] := rfl

theorem get?_set (d : Dict κ ν) (k l : κ) (v : ν) :
    (d.set k v).get? l = if l = k then some v else d.get? l :=
  lookup_setEntries k l v d.entries

@[simp] theorem get?_set_self (d : Dict κ ν) (k : κ) (v : ν) : (d.set k v).get? k = some v := by
  simp [get?_set]

theorem get?_set_ne (d : Dict κ ν) {k l : κ} (v : ν) (h : l ≠ k) : (d.set k v).get? l = d.get? l := by
  simp [get?_set, h]

theorem get?_setDefault (d : Dict κ ν) (k l : κ) (v : ν) :
    (d.setDefault k v).get? l = if l = k then some ((d.get? k).getD v) else d.get? l := by
  unfold setDefault
  cases h : d.get? k with
  | none =>
    simp only [Option.isSome_none, Bool.false_eq_true, ↓reduceIte, get?_set, Option.getD_none]
  | some w =>
    simp only [Option.isSome_some, ↓reduceIte, Option.getD_some]
    split
    · next hl => rw [hl, h]
    · rfl

/-- A default changes no value that is there. -/
theorem get?_setDefault_of_some (d : Dict κ ν) {l : κ} {w : ν} (h : d.get? l = some w) (k : κ) (v : ν) :
    (d.setDefault k v).get? l = some w := by
  rw [get?_setDefault]
  split
  · next hl =>
    rw [← hl, h]
    rfl
  · exact h

theorem setEntries_of_notMem {k : κ} {es : List (κ × ν)} (h : k ∉ es.map Prod.fst) (v : ν) :
    setEntries k v es = es ++ [(k, v)] := by
  induction es with
  | nil => rfl
  | cons e es ih =>
    rw [List.map_cons, List.mem_cons, not_or] at h
    rw [setEntries, if_neg (Ne.symm h.1), ih h.2, List.cons_append]

/-- Pairs with new keys, each once, are added at the end. -/
theorem entries_update_of_nodup {d : Dict κ ν} {pairs : List (κ × ν)} (h : (d.keys ++ pairs.map Prod.fst).Nodup) :
    (d.update pairs).entries = d.entries ++ pairs := by
  induction pairs generalizing d with
  | nil => exact (List.append_nil _).symm
  | cons p pairs ih =>
    rw [List.map_cons] at h
    have hset : (d.set p.1 p.2).entries = d.entries ++ [p] :=
      setEntries_of_notMem (fun hmem => (List.nodup_append.1 h).2.2 _ hmem _ (List.mem_cons_self ..) rfl) p.2
    have hkeys : (d.set p.1 p.2).keys = d.keys ++ [p.1] := by rw [keys, hset, List.map_append]; rfl
    have hrest := ih (d := d.set p.1 p.2) (by rw [hkeys, List.append_assoc]; exact h)
    rw [update, List.foldl_cons]
    exact hrest.trans (by rw [hset, List.append_assoc]; rfl)

/-- Of the pairs with one key the last one counts. -/
theorem get?_update (d : Dict κ ν) (pairs : List (κ × ν)) (k : κ) :
    (d.update pairs).get? k = (pairs.reverse.lookup k).or (d.get? k) := by
  induction pairs generalizing d with
  | nil => rfl
  | cons p pairs ih =>
    obtain ⟨l, v⟩ := p
    rw [update, List.foldl_cons]
    change ((d.set l v).update pairs).get? k = _
    rw [ih, get?_set, List.reverse_cons, List.lookup_append, lookup_cons_ite, Option.or_assoc]
    split <;> rfl

/-- A key that no pair has keeps its value. -/
theorem get?_update_of_notMem (d : Dict κ ν) {pairs : List (κ × ν)} {k : κ} (h : k ∉ pairs.map Prod.fst) :
    (d.update pairs).get? k = d.get? k := by
  have hlookup : pairs.reverse.lookup k = none := by
    rw [List.lookup_eq_none_iff]
    intro pair hpair
    rw [bne_iff_ne]
    rintro rfl
    exact h (List.mem_map_of_mem (List.mem_reverse.1 hpair))
  rw [get?_update, hlookup, Option.none_or]

/-- Many keys are set to one value. -/
theorem get?_update_map (d : Dict κ ν) (ks : List κ) (v : ν) (k : κ) :
    (d.update (ks.map (·, v))).get? k = if k ∈ ks then some v else d.get? k := by
  induction ks generalizing d with
  | nil => rfl
  | cons l ks ih =>
    rw [List.map_cons, update, List.foldl_cons]
    change ((d.set l v).update _).get? k = _
    rw [ih, get?_set]
    by_cases hk : k = l
    · simp [hk]
    · simp [hk]

theorem get?_erase (d : Dict κ ν) (k l : κ) : (d.erase k).get? l = if l = k then none else d.get? l := by
  simp only [get?, erase]
  induction d.entries with
  | nil => simp
  | cons e es ih =>
    obtain ⟨m, w⟩ := e
    by_cases hm : m = k
    · rw [List.filter_cons_of_neg (by simpa using hm), ih, lookup_cons_ite, hm]
      split <;> rfl
    · rw [List.filter_cons_of_pos (by simpa using hm), lookup_cons_ite, lookup_cons_ite, ih]
      by_cases hl : l = m
      · simp only [hl, ↓reduceIte, hm]
      · simp only [hl, ↓reduceIte]

theorem mem_entries_iff (d : Dict κ ν) {k : κ} {v : ν} : (k, v) ∈ d.entries ↔ d.get? k = some v := by
  obtain ⟨es, hn⟩ := d
  simp only [get?]
  induction es with
  | nil => simp
  | cons e es ih =>
    obtain ⟨m, w⟩ := e
    simp only [List.map_cons, List.nodup_cons] at hn
    by_cases hk : k = m
    · subst hk
      have hno : (k, v) ∉ es := fun h => hn.1 (List.mem_map_of_mem (f := Prod.fst) h)
      simp [hno, eq_comm]
    · simp [lookup_cons_ite, hk, ih hn.2]

theorem mem_keys (d : Dict κ ν) {k : κ} : k ∈ d.keys ↔ (d.get? k).isSome := by
  simp only [keys, List.mem_map, Prod.exists, exists_eq_right, exists_and_right, mem_entries_iff,
    Option.isSome_iff_exists]

/-- Iterating over the values visits the values of the keys. -/
theorem mem_values (d : Dict κ ν) {v : ν} : v ∈ d.values ↔ ∃ k, d.get? k = some v := by
  simp only [values, List.mem_map, Prod.exists, exists_eq_right, mem_entries_iff]

theorem get?_filter (d : Dict κ ν) (p : κ → ν → Bool) (k : κ) : (d.filter p).get? k = (d.get? k).filter (p k) := by
  cases hk : d.get? k with
  | some v =>
    cases hp : p k v with
    | true =>
      rw [Option.filter_some, if_pos hp, ← mem_entries_iff]
      exact List.mem_filter.2 ⟨d.mem_entries_iff.2 hk, hp⟩
    | false =>
      rw [Option.filter_some, hp, if_neg Bool.false_ne_true, Option.eq_none_iff_forall_not_mem]
      intro w hw
      obtain ⟨hw, hpw⟩ := List.mem_filter.1 ((d.filter p).mem_entries_iff.2 hw)
      rw [mem_entries_iff, hk, Option.some.injEq] at hw
      rw [← hw, hp] at hpw
      cases hpw
  | none =>
    rw [Option.filter_none, Option.eq_none_iff_forall_not_mem]
    intro w hw
    have hmem := (List.mem_filter.1 ((d.filter p).mem_entries_iff.2 hw)).1
    rw [mem_entries_iff, hk] at hmem
    cases hmem

theorem get?_filter_of_true (d : Dict κ ν) {p : κ → ν → Bool} {k : κ} (h : ∀ v, d.get? k = some v → p k v = true) :
    (d.filter p).get? k = d.get? k := by
  rw [get?_filter]
  cases hk : d.get? k with
  | none => rfl
  | some v => rw [Option.filter_some, if_pos (h v hk)]

omit [DecidableEq κ] in
theorem values_filter (d : Dict κ ν) (p : ν → Bool) : (d.filter fun _ v => p v).values = d.values.filter p := by
  simp only [values, filter, List.filter_map, Function.comp_def]

omit [DecidableEq κ] in
theorem ext_entries {d d' : Dict κ ν} (h : d.entries = d'.entries) : d = d' := by
  cases d
  cases d'
  cases h
  rfl

/-- An entry that the filter drops, before and after it is set. -/
theorem filter_set_of_false (d : Dict κ ν) {p : κ → ν → Bool} {k : κ} {v : ν} (hv : p k v = false)
    (hk : ∀ w, d.get? k = some w → p k w = false) : (d.set k v).filter p = d.filter p := by
  apply ext_entries
  obtain ⟨es, hn⟩ := d
  show (setEntries k v es).filter _ = es.filter _
  simp only [get?] at hk
  clear hn
  induction es with
  | nil => simp [setEntries, hv]
  | cons e es ih =>
    obtain ⟨l, w⟩ := e
    simp only [lookup_cons_ite] at hk
    by_cases hl : l = k
    · have hw : p k w = false := hk w (if_pos hl.symm)
      simp [setEntries, hl, hv, hw]
    · rw [if_neg (Ne.symm hl)] at hk
      simp [setEntries, hl, List.filter_cons, ih hk]

/-- An entry that the filter keeps, before and after it is set. -/
theorem filter_set_of_true (d : Dict κ ν) {p : κ → ν → Bool} {k : κ} {v : ν} (hv : p k v = true)
    (hk : ∀ w, d.get? k = some w → p k w = true) : (d.set k v).filter p = (d.filter p).set k v := by
  apply ext_entries
  obtain ⟨es, hn⟩ := d
  show (setEntries k v es).filter _ = setEntries k v (es.filter _)
  simp only [get?] at hk
  clear hn
  induction es with
  | nil => simp [setEntries, hv]
  | cons e es ih =>
    obtain ⟨l, w⟩ := e
    simp only [lookup_cons_ite] at hk
    by_cases hl : l = k
    · have hw : p k w = true := hk w (if_pos hl.symm)
      simp [setEntries, hl, hv, hw]
    · rw [if_neg (Ne.symm hl)] at hk
      cases hw : p l w <;> simp [setEntries, hl, hw, ih hk]

/-- A new key goes to the end. -/
theorem values_set_of_none (d : Dict κ ν) {k : κ} (v : ν) (h : d.get? k = none) :
    (d.set k v).values = d.values ++ [v] := by
  obtain ⟨es, hn⟩ := d
  simp only [get?] at h
  simp only [values, set]
  induction es with
  | nil => rfl
  | cons e es ih =>
    obtain ⟨l, w⟩ := e
    rw [lookup_cons_ite] at h
    by_cases hl : k = l
    · rw [if_pos hl] at h; cases h
    · rw [if_neg hl] at h
      simp only [setEntries, Ne.symm hl, ↓reduceIte, List.map_cons, List.cons_append,
        ih (List.nodup_cons.1 hn).2 h]

/-- A key that is present keeps its place. -/
theorem values_set_of_some [DecidableEq ν] (d : Dict κ ν) {k : κ} {v : ν} (w : ν) (h : d.get? k = some v)
    (hinj : ∀ l, d.get? l = some v → l = k) : (d.set k w).values = d.values.replace v w := by
  obtain ⟨es, hn⟩ := d
  simp only [get?] at h hinj
  simp only [values, set]
  induction es with
  | nil => cases h
  | cons e es ih =>
    obtain ⟨l, u⟩ := e
    rw [lookup_cons_ite] at h
    by_cases hl : k = l
    · rw [if_pos hl, Option.some.injEq] at h
      simp only [setEntries, hl, ↓reduceIte, List.map_cons, List.replace_cons, h, beq_self_eq_true]
    · rw [if_neg hl] at h
      have hu : u ≠ v := fun hu => hl (hinj l (by rw [lookup_cons_ite, if_pos rfl, hu])).symm
      have hes : ∀ l', es.lookup l' = some v → l' = k := by
        intro l' hl'
        refine hinj l' ?_
        rw [lookup_cons_ite, if_neg, hl']
        rintro rfl
        have hmem : (l', v) ∈ es := (mem_entries_iff ⟨es, (List.nodup_cons.1 hn).2⟩).2 hl'
        have hkeys : l' ∈ es.map Prod.fst := List.mem_map_of_mem (f := Prod.fst) hmem
        exact (List.nodup_cons.1 hn).1 hkeys
      simp only [setEntries, Ne.symm hl, ↓reduceIte, List.map_cons, List.replace_cons,
        beq_eq_false_iff_ne.2 (Ne.symm hu), ih (List.nodup_cons.1 hn).2 h hes]

/-- If each value has its own key, searching for a key finds what it holds. -/
theorem find?_values (d : Dict κ ν) {key : ν → κ} (hkeyed : ∀ k v, d.get? k = some v → key v = k) (k : κ) :
    (d.values.find? fun v => key v = k) = d.get? k := by
  cases hk : d.get? k with
  | none =>
    refine List.find?_eq_none.2 fun v hv hkey => ?_
    obtain ⟨l, hl⟩ := d.mem_values.1 hv
    rw [← hkeyed l v hl, of_decide_eq_true hkey, hk] at hl
    cases hl
  | some v =>
    have hsome : (d.values.find? fun v => key v = k).isSome :=
      List.find?_isSome.2 ⟨v, d.mem_values.2 ⟨k, hk⟩, decide_eq_true (hkeyed k v hk)⟩
    obtain ⟨w, hw⟩ := Option.isSome_iff_exists.1 hsome
    obtain ⟨l, hl⟩ := d.mem_values.1 (List.mem_of_find?_eq_some hw)
    have hfound := List.find?_some hw
    have hkey : key w = k := of_decide_eq_true hfound
    rw [← hkeyed l w hl, hkey, hk] at hl
    rw [hw, hl]

omit [DecidableEq κ] in
/-- The first element that satisfies `p` is replaced. -/
theorem find?_replace [DecidableEq ν] {vs : List ν} {v w : ν} {p : ν → Bool} (hv : vs.find? p = some v)
    (hw : p w = true) : (vs.replace v w).find? p = some w := by
  induction vs with
  | nil => cases hv
  | cons u vs ih =>
    rw [List.find?_cons] at hv
    by_cases hu : v = u
    · rw [List.replace_cons, beq_iff_eq.2 hu, List.find?_cons, hw]
    · cases hpu : p u with
      | true =>
        rw [hpu, Option.some.injEq] at hv
        exact absurd hv.symm hu
      | false =>
        rw [hpu] at hv
        rw [List.replace_cons, beq_eq_false_iff_ne.2 hu, List.find?_cons, hpu]
        exact ih hv

omit [DecidableEq κ] in
theorem map_replace [DecidableEq ν] {f : ν → κ} {v w : ν} (h : f w = f v) (vs : List ν) :
    (vs.replace v w).map f = vs.map f := by
  induction vs with
  | nil => rfl
  | cons u vs ih =>
    by_cases hu : v = u
    · rw [List.replace_cons, beq_iff_eq.2 hu, List.map_cons, List.map_cons, h, hu]
    · rw [List.replace_cons, beq_eq_false_iff_ne.2 hu, List.map_cons, List.map_cons, ih]

end Dict

end Ochestrate
