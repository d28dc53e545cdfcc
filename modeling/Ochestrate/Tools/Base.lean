import Ochestrate.Framework.Fault
import Ochestrate.Schemas.Json

/-!
# Tools, calls and parameters

`app/tools/base.py`, and the dictionaries of parameters that it passes around.
A planned dictionary has strings as keys, but a client can merge any pairs into
it (`updatePairs` is what `dict.update` makes of a JSON value), so a `Key` is
any hashable JSON value. Numbers that are equal are one key.
-/

namespace Ochestrate

/-- A key of a dictionary: a string, a number or truth value, or `None`. -/
inductive Key
  | str (s : String)
  | num (q : Rat)
  | null
  deriving DecidableEq

/-- A dictionary of parameters. -/
abbrev Params := Dict Key Json

/-- Functions of the language that depend on how it writes and reads text. -/
structure Builtins where
  /-- `str(value)` -/
  str : Json → String
  /-- `f"{params}"` -/
  repr : Params → String
  /-- `hashlib.sha1(text.encode("utf-8")).hexdigest()` -/
  sha1 : String → String
  /-- `text.lower()` -/
  lower : String → String
  str_str (s : String) : str (.str s) = s

/-- A value as a text, if it is one. -/
def Json.plainStr (value : Json) : String := value.asStr.getD ""

theorem Json.plainStr_str (s : String) : (str s).plainStr = s := rfl

/-- The functions of the language on ASCII texts. -/
def asciiBuiltins : Builtins where
  str := Json.plainStr
  repr _ := ""
  sha1 text := text
  lower text := .ofList (text.toList.map Char.toLower)
  str_str := Json.plainStr_str

namespace Json

/-- The name of the value's type. -/
def typeName : Json → String
  | null => "NoneType"
  | bool _ => "bool"
  | int _ => "int"
  | float _ => "float"
  | str _ => "str"
  | arr _ => "list"
  | obj _ => "dict"

/-- `hash(value)`: the key that the value is. -/
def asKey : Json → Except Exc Key
  | null => .ok .null
  | bool b => .ok (.num (if b then 1 else 0))
  | int z => .ok (.num z)
  | float q => .ok (.num q)
  | str s => .ok (.str s)
  | arr _ => .error ⟨.typeError, "unhashable type: 'list'"⟩
  | obj _ => .error ⟨.typeError, "unhashable type: 'dict'"⟩

/-- `iter(value)`: characters, items or keys. -/
def items : Json → Option (List Json)
  | str s => some (s.toList.map fun c => str (String.singleton c))
  | arr xs => some xs
  | obj fields => some (fields.map fun f => str f.1)
  | _ => none

/-- What `dict.update` makes of the item at position `i`. -/
def updatePair (item : Json) (i : Nat) : Except Exc (Key × Json) :=
  match item.items with
  | none =>
    .error ⟨.typeError,
      "cannot convert dictionary update sequence element #" ++ toString i ++ " to a sequence"⟩
  | some [k, v] => k.asKey.map (·, v)
  | some items =>
    .error ⟨.valueError, "dictionary update sequence element #" ++ toString i ++ " has length " ++
      toString items.length ++ "; 2 is required"⟩

/-- The pairs that `dict.update(value)` sets, in their order. -/
def updatePairs (value : Json) : Except Exc (List (Key × Json)) :=
  match value with
  | obj fields => .ok (fields.map fun f => (.str f.1, f.2))
  | _ =>
    match value.items with
    | none => .error ⟨.typeError, "'" ++ value.typeName ++ "' object is not iterable"⟩
    | some items => items.zipIdx.mapM fun (item, i) => item.updatePair i

end Json

/-- `value or other` -/
def orElse (value : Option Json) (other : Json) : Json :=
  match value with
  | none => other
  | some value => if value.truthy then value else other

/-- One invocation, as the executor asks for it. -/
structure ToolCall where
  toolName : String
  userRole : Json
  idempotencyKey : String
  traceId : String
  tenantId : String
  userId : String
  params : Params
  deriving DecidableEq

structure ToolInvokeResult where
  output : Dict String Json
  auditRef : String
  policyApplied : Dict String Json
  cacheHit : Bool := false
  deriving DecidableEq

/-- A tool; `run` acts on the world `ω` outside the hub. -/
structure Tool (ω : Type) where
  name : String
  description : String
  requiredRoles : List String
  idempotent : Bool
  run : Params → EStateM Exc ω (Dict String Json)

end Ochestrate
