import Mathlib.Data.Rat.Defs
import Ochestrate.Framework.Dict

/-!
# JSON values

The values of the columns and fields that the source types as `Any` or
`dict[str, Any]`: what a request body or a JSON column can hold. A float is
the rational it denotes. `truthy` is the language's truth value, which the
source uses for `x or y` and `if x`.
-/

namespace Ochestrate

/-- A JSON value, the fields of an object in their order. -/
inductive Json where
  | null
  | bool (b : Bool)
  | int (z : Int)
  | float (q : Rat)
  | str (s : String)
  | arr (xs : List Json)
  | obj (fields : List (String × Json))
  deriving Repr, Inhabited

namespace Json

mutual
/-- Equality of values. -/
def beq : Json → Json → Bool
  | null, null => true
  | bool a, bool b => a == b
  | int a, int b => a == b
  | float a, float b => a == b
  | str a, str b => a == b
  | arr xs, arr ys => beqList xs ys
  | obj xs, obj ys => beqFields xs ys
  | _, _ => false
/-- Equality of arrays. -/
def beqList : List Json → List Json → Bool
  | [], [] => true
  | x :: xs, y :: ys => beq x y && beqList xs ys
  | _, _ => false
/-- Equality of objects. -/
def beqFields : List (String × Json) → List (String × Json) → Bool
  | [], [] => true
  | (k, x) :: xs, (l, y) :: ys => k == l && beq x y && beqFields xs ys
  | _, _ => false
end

mutual
theorem beq_iff : ∀ a b : Json, beq a b = true ↔ a = b
  | null, b | bool _, b | int _, b | float _, b | str _, b => by cases b <;> simp [beq]
  | arr xs, b => by cases b <;> simp [beq, beqList_iff xs]
  | obj xs, b => by cases b <;> simp [beq, beqFields_iff xs]
theorem beqList_iff : ∀ xs ys : List Json, beqList xs ys = true ↔ xs = ys
  | [], ys => by cases ys <;> simp [beqList]
  | x :: xs, ys => by cases ys <;> simp [beqList, beq_iff x, beqList_iff xs]
theorem beqFields_iff : ∀ xs ys : List (String × Json), beqFields xs ys = true ↔ xs = ys
  | [], ys => by cases ys <;> simp [beqFields]
  | (k, x) :: xs, ys => by
    rcases ys with _ | ⟨⟨l, y⟩, ys⟩ <;> simp [beqFields, beq_iff x, beqFields_iff xs]
end

instance : DecidableEq Json := fun a b => decidable_of_iff _ (beq_iff a b)

/-- The truth value: false for `None`, `False`, zero and empty values. -/
def truthy : Json → Bool
  | null => false
  | bool b => b
  | int z => z ≠ 0
  | float q => q ≠ 0
  | str s => s ≠ ""
  | arr xs => xs ≠ []
  | obj fields => fields ≠ []

/-- The value of an object's field. -/
def field (key : String) : Json → Option Json
  | obj fields => fields.lookup key
  | _ => none

@[simp] theorem field_cons (key l : String) (v : Json) (fields : List (String × Json)) :
    (obj ((l, v) :: fields)).field key = if key = l then some v else (obj fields).field key :=
  Dict.lookup_cons_ite key l v fields

/-- The object of a dictionary. -/
def ofDict (d : Dict String Json) : Json := obj d.entries

/-- `None` or a value. -/
def ofOption {α : Type} (f : α → Json) : Option α → Json
  | none => null
  | some a => f a

/-! Reading values of one type back. -/

def asBool : Json → Option Bool
  | bool b => some b
  | _ => none

def asInt : Json → Option Int
  | int z => some z
  | _ => none

def asFloat : Json → Option Rat
  | float q => some q
  | _ => none

def asStr : Json → Option String
  | str s => some s
  | _ => none

def asDict : Json → Option (Dict String Json)
  | obj fields => if h : (fields.map Prod.fst).Nodup then some ⟨fields, h⟩ else none
  | _ => none

def asList {α : Type} (f : Json → Option α) : Json → Option (List α)
  | arr xs => xs.mapM f
  | _ => none

def asOption {α : Type} (f : Json → Option α) : Json → Option (Option α)
  | null => some none
  | j => (f j).map some

@[simp] theorem asBool_bool (b : Bool) : (bool b).asBool = some b := rfl
@[simp] theorem asInt_int (z : Int) : (int z).asInt = some z := rfl
@[simp] theorem asFloat_float (q : Rat) : (float q).asFloat = some q := rfl
@[simp] theorem asStr_str (s : String) : (str s).asStr = some s := rfl

@[simp] theorem asDict_ofDict (d : Dict String Json) : (ofDict d).asDict = some d := by
  simp [ofDict, asDict, d.nodup]

theorem asList_map {α : Type} {f : Json → Option α} {g : α → Json} (h : ∀ a, f (g a) = some a)
    (as : List α) : (arr (as.map g)).asList f = some as := by
  induction as with
  | nil => rfl
  | cons a as ih =>
    simp only [asList, List.map_cons, List.mapM_cons, h, Option.bind_eq_bind, Option.bind_some] at ih ⊢
    rw [ih]; rfl

theorem asOption_ofOption {α : Type} {f : Json → Option α} {g : α → Json} (h : ∀ a, f (g a) = some a)
    (hn : ∀ a, g a ≠ null) (o : Option α) : (ofOption g o).asOption f = some o := by
  cases o with
  | none => rfl
  | some a =>
    simp only [ofOption, asOption]
    split
    · rename_i hg; exact absurd hg (hn a)
    · rw [h, Option.map_some]

@[simp] theorem asOption_str (o : Option String) : (ofOption str o).asOption asStr = some o :=
  asOption_ofOption (f := asStr) (g := str) (fun _ => rfl) (fun _ h => nomatch h) o

end Json

end Ochestrate
