import Mathlib.Data.List.Flatten
import Mathlib.Data.List.Infix
import Mathlib.Data.List.TakeWhile
import Ochestrate.Framework.Strings

/-!
# The words of a text

`words p xs` are the longest pieces of `xs` without an element in `p`. They can
be read off part by part where the parts meet at a separator (`words_append`),
and joining words by a separator and reading them again gives them back
(`words_intercalate_words`). `split` is the case of white space; `labelled` writes
texts under labels, and `split_labelled` reads their words.
-/

namespace Ochestrate

universe u

section Words

variable {α : Type u} {p : α → Bool} {sep : α} {xs ys : List α}

/-- The pieces between separators that are not empty. -/
def words (p : α → Bool) (xs : List α) : List (List α) := (xs.splitOnP p).filter fun word => !word.isEmpty

@[simp] theorem words_nil : words p [] = [] := rfl

theorem words_append_cons (hsep : p sep = true) (xs ys : List α) :
    words p (xs ++ sep :: ys) = words p xs ++ words p ys := by
  rw [words, List.splitOnP_append_cons xs ys hsep, List.filter_append]
  rfl

theorem words_cons (hsep : p sep = true) (xs : List α) : words p (sep :: xs) = words p xs :=
  words_append_cons hsep [] xs

theorem words_concat (hsep : p sep = true) (xs : List α) : words p (xs ++ [sep]) = words p xs := by
  rw [words_append_cons hsep, words_nil, List.append_nil]

/-- Parts that meet at a separator. -/
theorem words_append (h : (∃ sep ∈ xs.getLast?, p sep = true) ∨ ∃ sep ∈ ys.head?, p sep = true) :
    words p (xs ++ ys) = words p xs ++ words p ys := by
  rcases h with ⟨sep, hlast, hsep⟩ | ⟨sep, hhead, hsep⟩
  · rw [← List.dropLast_append_getLast? sep hlast, List.append_assoc, List.singleton_append, words_append_cons hsep,
      words_concat hsep]
  · cases ys with
    | nil => cases hhead
    | cons y ys =>
      obtain rfl : y = sep := Option.some.inj hhead
      rw [words_append_cons hsep, words_cons hsep]

/-- Separators in front make no word. -/
theorem words_blank_append (h : ∀ x ∈ xs, p x = true) (ys : List α) : words p (xs ++ ys) = words p ys := by
  induction xs with
  | nil => rfl
  | cons x xs ih =>
    rw [List.cons_append, words_cons (h x (List.mem_cons_self ..)), ih fun y hy => h y (List.mem_cons_of_mem x hy)]

theorem words_append_blank (h : ∀ y ∈ ys, p y = true) (xs : List α) : words p (xs ++ ys) = words p xs := by
  cases ys with
  | nil => rw [List.append_nil]
  | cons y ys =>
    have hblank := words_blank_append (fun z hz => h z (List.mem_cons_of_mem y hz)) []
    rw [List.append_nil] at hblank
    rw [words_append_cons (h y (List.mem_cons_self ..)), hblank, words_nil, List.append_nil]

theorem words_dropWhile (xs : List α) : words p (xs.dropWhile p) = words p xs := by
  have hsplit := words_blank_append (List.all_eq_true.1 (List.all_takeWhile (l := xs) (p := p))) (xs.dropWhile p)
  rw [List.takeWhile_append_dropWhile] at hsplit
  exact hsplit.symm

/-- Separators at the end are left out. -/
theorem words_dropWhile_reverse (xs : List α) : words p (xs.reverse.dropWhile p).reverse = words p xs := by
  have hblank : ∀ x ∈ (xs.reverse.takeWhile p).reverse, p x = true := fun x hx =>
    List.all_eq_true.1 (List.all_takeWhile (l := xs.reverse) (p := p)) x (List.mem_reverse.1 hx)
  have hsplit := words_append_blank hblank (xs.reverse.dropWhile p).reverse
  rw [← List.reverse_append, List.takeWhile_append_dropWhile, List.reverse_reverse] at hsplit
  exact hsplit.symm

theorem words_eq_singleton {word : List α} (hne : word ≠ []) (h : ∀ x ∈ word, p x = false) : words p word = [word] := by
  rw [words, List.splitOnP_eq_singleton h]
  simp [hne]

/-- A word is not empty and has no separator. -/
theorem of_mem_words {word : List α} (h : word ∈ words p xs) : word ≠ [] ∧ ∀ x ∈ word, p x = false := by
  obtain ⟨hmem, hne⟩ := List.mem_filter.1 h
  refine ⟨by simpa using hne, ?_⟩
  clear h hne
  induction xs generalizing word with
  | nil =>
    rw [List.splitOnP_nil, List.mem_singleton] at hmem
    simp [hmem]
  | cons x xs ih =>
    rw [List.splitOnP_cons_eq_if_modifyHead] at hmem
    split at hmem
    · rcases List.mem_cons.1 hmem with rfl | hmem
      · simp
      · exact ih hmem
    · next hx =>
      cases hsplit : xs.splitOnP p with
      | nil => exact absurd hsplit (List.splitOnP_ne_nil p xs)
      | cons first rest =>
        rw [hsplit] at hmem ih
        rw [List.modifyHead_cons] at hmem
        rcases List.mem_cons.1 hmem with rfl | hmem
        · simpa [hx] using ih (List.mem_cons_self ..)
        · exact ih (List.mem_cons_of_mem _ hmem)

theorem words_of_mem_words {word : List α} (h : word ∈ words p xs) : words p word = [word] :=
  words_eq_singleton (of_mem_words h).1 (of_mem_words h).2

/-- Joined by separators, the texts have all their words. -/
theorem words_intercalate {seps : List α} (hne : seps ≠ []) (h : ∀ x ∈ seps, p x = true) (xss : List (List α)) :
    words p (seps.intercalate xss) = xss.flatMap (words p) := by
  induction xss with
  | nil => rfl
  | cons xs xss ih =>
    cases xss with
    | nil => rw [List.intercalate_singleton, List.flatMap_singleton]
    | cons ys xss =>
      have hhead : ∃ sep ∈ (seps ++ seps.intercalate (ys :: xss)).head?, p sep = true := by
        cases seps with
        | nil => exact absurd rfl hne
        | cons sep seps => exact ⟨sep, rfl, h sep (List.mem_cons_self ..)⟩
      rw [List.intercalate_cons_cons, List.append_assoc, words_append (.inr hhead), words_blank_append h, ih]
      rfl

/-- Words that are joined and read again. -/
theorem words_intercalate_words (hsep : p sep = true) {ws : List (List α)} (h : ∀ w ∈ ws, w ∈ words p xs) :
    words p ([sep].intercalate ws) = ws := by
  rw [words_intercalate (by simp) (by simpa using hsep), List.flatMap_congr fun w hw => words_of_mem_words (h w hw),
    List.flatMap_singleton']

/-- Without the separators at its ends a list is empty exactly if it has nothing
but separators. -/
theorem trim_eq_nil_iff (xs : List α) :
    ((xs.dropWhile p).reverse.dropWhile p).reverse = [] ↔ ∀ x ∈ xs, p x = true := by
  have hall : xs.dropWhile p = [] ↔ ∀ x ∈ xs, p x = true := List.dropWhile_eq_nil_iff
  rw [List.reverse_eq_nil_iff, List.dropWhile_eq_nil_iff, ← hall]
  constructor
  · intro h
    by_contra hne
    have hhead := List.head_dropWhile_not p hne
    rw [h _ (List.mem_reverse.2 (List.head_mem hne))] at hhead
    cases hhead
  · intro h
    simp [h]

end Words

/-! ## White space -/

theorem split_eq_words (text : String) : split text = (words isSpace text.toList).map .ofList := by
  refine congrArg (List.map String.ofList) (List.filter_congr fun word _ => ?_)
  cases word <;> rfl

/-- A text of white space. -/
def isBlank (text : String) : Bool := text.toList.all isSpace

theorem ne_empty_of_mem_split {word text : String} (h : word ∈ split text) : word ≠ "" := by
  rw [split_eq_words] at h
  obtain ⟨chars, hchars, rfl⟩ := List.mem_map.1 h
  intro hempty
  exact (of_mem_words hchars).1 (by simpa using congrArg String.toList hempty)

theorem split_append {text text' : String}
    (h : (∃ c ∈ text.toList.getLast?, isSpace c = true) ∨ ∃ c ∈ text'.toList.head?, isSpace c = true) :
    split (text ++ text') = split text ++ split text' := by
  rw [split_eq_words, String.toList_append, words_append h, List.map_append, ← split_eq_words, ← split_eq_words]

theorem split_append_blank (text : String) {blank : String} (h : isBlank blank = true) :
    split (text ++ blank) = split text := by
  rw [split_eq_words, String.toList_append, words_append_blank (List.all_eq_true.1 h), ← split_eq_words]

theorem split_intercalate {blank : String} (hne : blank ≠ "") (h : isBlank blank = true) (texts : List String) :
    split (blank.intercalate texts) = texts.flatMap split := by
  have hchars : blank.toList ≠ [] := by simpa using hne
  rw [split_eq_words, String.toList_intercalate, words_intercalate hchars (List.all_eq_true.1 h), List.map_flatMap,
    List.flatMap_map]
  exact List.flatMap_congr fun text _ => (split_eq_words text).symm

/-- `" ".join(words)` has the words. -/
theorem split_join {text : String} {ws : List String} (h : ∀ w ∈ ws, w ∈ split text) :
    split (" ".intercalate ws) = ws := by
  have hwords : ∀ chars ∈ ws.map String.toList, chars ∈ words isSpace text.toList := by
    intro chars hchars
    obtain ⟨w, hw, rfl⟩ := List.mem_map.1 hchars
    have hmem := h w hw
    rw [split_eq_words] at hmem
    obtain ⟨chars, hword, rfl⟩ := List.mem_map.1 hmem
    rw [String.toList_ofList]
    exact hword
  have hblank : " ".toList = [' '] := rfl
  rw [split_eq_words, String.toList_intercalate, hblank, words_intercalate_words (by decide) hwords, List.map_map]
  exact List.map_id'' (fun w => String.ofList_toList) ws

/-- Stripping keeps the words. -/
theorem split_strip (text : String) : split (strip text) = split text := by
  rw [split_eq_words, strip, String.toList_ofList, words_dropWhile_reverse, words_dropWhile, ← split_eq_words]

/-- Nothing is left of a blank text, and of no other. -/
theorem strip_eq_empty_iff (text : String) : strip text = "" ↔ isBlank text = true := by
  rw [strip, ← String.toList_inj, String.toList_ofList, String.toList_empty, trim_eq_nil_iff, isBlank, List.all_eq_true]

/-! ## Texts under labels -/

/-- The texts with their labels, in sections. -/
def labelled (sections : List (String × String)) : String :=
  "\n\n".intercalate (sections.map fun entry => "[" ++ entry.1 ++ "]\n" ++ entry.2)

/-- A label without white space. -/
def isLabel (label : String) : Bool := label.toList.all fun c => !isSpace c

/-- The words of labelled texts. -/
theorem split_labelled {sections : List (String × String)}
    (h : (sections.all fun entry => isLabel entry.1) = true) :
    split (labelled sections) = sections.flatMap fun entry => ("[" ++ entry.1 ++ "]") :: split entry.2 := by
  rw [labelled, split_intercalate (by decide) (by decide), List.flatMap_map]
  refine List.flatMap_congr fun entry hentry => ?_
  have hchars : ∀ c ∈ ("[" ++ entry.1 ++ "]").toList, isSpace c = false := by
    have hlabel : entry.1.toList.all (fun c => !isSpace c) = true := List.all_eq_true.1 h entry hentry
    have hall : ("[" ++ entry.1 ++ "]").toList.all (fun c => !isSpace c) = true := by
      rw [String.toList_append, String.toList_append, List.all_append, List.all_append, hlabel]
      decide
    exact fun c hc => by simpa using List.all_eq_true.1 hall c hc
  have hlabel : split ("[" ++ entry.1 ++ "]" ++ "\n") = ["[" ++ entry.1 ++ "]"] := by
    have hne : ("[" ++ entry.1 ++ "]").toList ≠ [] := by simp
    rw [split_append_blank _ (by decide), split_eq_words, words_eq_singleton hne hchars, List.map_singleton,
      String.ofList_toList]
  have hjoin : "[" ++ entry.1 ++ "]\n" = "[" ++ entry.1 ++ "]" ++ "\n" := by
    rw [String.append_assoc, String.append_assoc, String.append_assoc]
    rfl
  have hlast : ("[" ++ entry.1 ++ "]" ++ "\n").toList.getLast? = some '\n' := by
    rw [String.toList_append]
    exact List.getLast?_concat
  rw [hjoin, split_append (.inl ⟨'\n', hlast, by decide⟩), hlabel]
  rfl

end Ochestrate
