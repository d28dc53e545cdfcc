import Mathlib.Data.List.Infix

/-!
# Strings

The methods of strings and slices that the source uses on texts of one line or
of many.
-/

namespace Ochestrate

/-- The characters that `strip` and `split` take for white space. -/
def isSpace (c : Char) : Bool :=
  (9 ≤ c.toNat && c.toNat ≤ 13) || (28 ≤ c.toNat && c.toNat ≤ 32) || c.toNat = 0x85 || c.toNat = 0xa0 ||
    c.toNat = 0x1680 || (0x2000 ≤ c.toNat && c.toNat ≤ 0x200a) || c.toNat = 0x2028 || c.toNat = 0x2029 ||
    c.toNat = 0x202f || c.toNat = 0x205f || c.toNat = 0x3000

/-- `text.strip()` -/
def strip (text : String) : String :=
  .ofList ((text.toList.dropWhile isSpace).reverse.dropWhile isSpace).reverse

/-- `text.split()` -/
def split (text : String) : List String :=
  ((text.toList.splitOnP isSpace).filter (· ≠ [])).map .ofList

/-- `pattern in text`. -/
def containsText (pattern text : String) : Bool := pattern.toList <:+: text.toList

/-- The characters that end a line. -/
def isLineBreak (c : Char) : Bool :=
  (10 ≤ c.toNat && c.toNat ≤ 13) || (28 ≤ c.toNat && c.toNat ≤ 30) || c.toNat = 0x85 || c.toNat = 0x2028 ||
    c.toNat = 0x2029

/-- The lines of a text, without their ends. -/
def linesOf : List Char → List (List Char)
  | [] => []
  | '\r' :: '\n' :: cs => [] :: linesOf cs
  | c :: cs =>
    if isLineBreak c then [] :: linesOf cs
    else
      match linesOf cs with
      | [] => [[c]]
      | line :: lines => (c :: line) :: lines

/-- `text.splitlines()` -/
def splitlines (text : String) : List String := (linesOf text.toList).map .ofList

/-- `re.sub(r"\s+", " ", text)`; the first argument says that a space was written last. -/
def collapseSpaces : Bool → List Char → List Char
  | _, [] => []
  | spaced, c :: cs =>
    if isSpace c then
      if spaced then collapseSpaces true cs else ' ' :: collapseSpaces true cs
    else c :: collapseSpaces false cs

/-- `xs[:limit]` -/
def sliceTo {α : Type} (limit : Int) (xs : List α) : List α :=
  if 0 ≤ limit then xs.take limit.toNat else xs.take (xs.length - limit.natAbs)

theorem sliceTo_of_nonneg {α : Type} {limit : Int} (h : 0 ≤ limit) (xs : List α) :
    sliceTo limit xs = xs.take limit.toNat :=
  if_pos h

theorem map_sliceTo {α β : Type} (f : α → β) (limit : Int) (xs : List α) :
    (sliceTo limit xs).map f = sliceTo limit (xs.map f) := by
  unfold sliceTo
  split
  · rw [List.map_take]
  · rw [List.map_take, List.length_map]

/-- Up to the first separator two texts agree, and after it. -/
theorem separated_inj {α : Type} {x : α} {xs ys xs' ys' : List α} (hx : x ∉ xs) (hx' : x ∉ xs')
    (h : xs ++ x :: ys = xs' ++ x :: ys') : xs = xs' ∧ ys = ys' := by
  induction xs generalizing xs' with
  | nil =>
    cases xs' with
    | nil => exact ⟨rfl, (List.cons.inj h).2⟩
    | cons y xs' => exact absurd ((List.cons.inj h).1 ▸ List.mem_cons_self ..) hx'
  | cons y xs ih =>
    cases xs' with
    | nil => exact absurd ((List.cons.inj h).1 ▸ List.mem_cons_self ..) hx
    | cons y' xs' =>
      obtain ⟨rfl, hrest⟩ := List.cons.inj h
      obtain ⟨rfl, rfl⟩ := ih (fun hmem => hx (List.mem_cons_of_mem _ hmem))
        (fun hmem => hx' (List.mem_cons_of_mem _ hmem)) hrest
      exact ⟨rfl, rfl⟩

end Ochestrate
