import Ochestrate.Tools.Base

/-!
# Equal values

What `==` of the language says of JSON values and of dictionaries of parameters:
the fields of an object are equal in any order, and so are numbers and truth values
of different types. Equal values may be written differently.
-/

namespace Ochestrate

/-- The number that a value is; truth values are numbers. -/
def Json.number : Json → Option Rat
  | bool b => some (if b then 1 else 0)
  | int z => some z
  | float q => some q
  | _ => none

mutual
/-- `value == value'` -/
inductive Json.Same : Json → Json → Prop
  | null : Json.Same .null .null
  | number {a b : Json} {q : Rat} (ha : a.number = some q) (hb : b.number = some q) : Json.Same a b
  | str (s : String) : Json.Same (.str s) (.str s)
  | arr {xs ys : List Json} (h : SameItems xs ys) : Json.Same (.arr xs) (.arr ys)
  | obj {xs xs' ys ys' : List (String × Json)} (hx : xs.Perm xs') (h : SameFields xs' ys') (hy : ys'.Perm ys) :
    Json.Same (.obj xs) (.obj ys)
/-- Equal items, one after the other. -/
inductive SameItems : List Json → List Json → Prop
  | nil : SameItems [] []
  | cons {x y : Json} {xs ys : List Json} (h : Json.Same x y) (hrest : SameItems xs ys) :
    SameItems (x :: xs) (y :: ys)
/-- The same names with equal values, one after the other. -/
inductive SameFields : List (String × Json) → List (String × Json) → Prop
  | nil : SameFields [] []
  | cons (name : String) {x y : Json} {xs ys : List (String × Json)} (h : Json.Same x y) (hrest : SameFields xs ys) :
    SameFields ((name, x) :: xs) ((name, y) :: ys)
end

mutual
theorem Json.Same.refl : ∀ a : Json, a.Same a
  | .null => .null
  | .bool _ => .number rfl rfl
  | .int _ => .number rfl rfl
  | .float _ => .number rfl rfl
  | .str s => .str s
  | .arr xs => .arr (SameItems.refl xs)
  | .obj xs => .obj (.refl xs) (SameFields.refl xs) (.refl xs)
theorem SameItems.refl : ∀ xs : List Json, SameItems xs xs
  | [] => .nil
  | x :: xs => .cons (Json.Same.refl x) (SameItems.refl xs)
theorem SameFields.refl : ∀ xs : List (String × Json), SameFields xs xs
  | [] => .nil
  | (name, x) :: xs => .cons name (Json.Same.refl x) (SameFields.refl xs)
end

mutual
theorem Json.Same.symm : ∀ {a b : Json}, a.Same b → b.Same a
  | _, _, .null => .null
  | _, _, .number ha hb => .number hb ha
  | _, _, .str s => .str s
  | _, _, .arr h => .arr h.symm
  | _, _, .obj hx h hy => .obj hy.symm h.symm hx.symm
theorem SameItems.symm : ∀ {xs ys : List Json}, SameItems xs ys → SameItems ys xs
  | _, _, .nil => .nil
  | _, _, .cons h hrest => .cons h.symm hrest.symm
theorem SameFields.symm : ∀ {xs ys : List (String × Json)}, SameFields xs ys → SameFields ys xs
  | _, _, .nil => .nil
  | _, _, .cons name h hrest => .cons name h.symm hrest.symm
end

/-- `params == params'`: the same keys with equal values, in any order. -/
def Params.Same (params params' : Params) : Prop := ∀ key, Option.Rel Json.Same (params.get? key) (params'.get? key)

theorem Params.Same.refl (params : Params) : Params.Same params params := by
  intro key
  cases params.get? key with
  | none => exact .none
  | some value => exact .some (.refl value)

/-- The same entries in another order. -/
theorem Params.Same.of_perm {params params' : Params} (h : params.entries.Perm params'.entries) :
    Params.Same params params' := by
  have hget : ∀ key, params.get? key = params'.get? key := fun key => Option.ext fun value => by
    rw [← Dict.mem_entries_iff, ← Dict.mem_entries_iff, h.mem_iff]
  intro key
  rw [hget key]
  exact Params.Same.refl params' key

theorem Params.Same.symm {params params' : Params} (h : Params.Same params params') : Params.Same params' params := by
  intro key
  have hkey := h key
  generalize params.get? key = value, params'.get? key = value' at hkey
  cases hkey with
  | none => exact .none
  | some hsame => exact .some hsame.symm

end Ochestrate
