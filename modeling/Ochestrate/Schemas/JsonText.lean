import Mathlib.Data.Bool.AllAny
import Mathlib.Data.Nat.Digits.Defs
import Ochestrate.Framework.Rounding
import Ochestrate.Schemas.Json
import Ochestrate.Schemas.Value

/-!
# JSON texts

A format says how values are written on one line: whether characters outside of
ASCII are escaped (`json.dumps` with `ensure_ascii`), whether a blank stands after
a comma and a colon, and how the language writes a float. `loads` is the reader of
JSON texts, which allows blanks between any two tokens.

* `loads_write`: the reader reads back what any format writes, if it reads back the
  floats and no object has a key twice;
* `newline_notMem_write`: what is written is one line.
-/

namespace Ochestrate

structure JsonFormat where
  ascii : Bool
  spaced : Bool
  floatText : Rat → List Char

namespace JsonFormat

/-! ## Writing -/

/-- `\u` and four digits. -/
def unicodeEscape (n : Nat) : List Char :=
  ['\\', 'u', Value.hexDigit (n / 4096), Value.hexDigit (n / 256 % 16), Value.hexDigit (n / 16 % 16),
    Value.hexDigit (n % 16)]

variable (F : JsonFormat)

/-- A character in a string. One past `\uffff` is escaped as two surrogates. -/
def escapeChar (c : Char) : List Char :=
  match Value.shortEscapes.lookup c with
  | some e => e.toList
  | none =>
    if c.toNat < 32 then unicodeEscape c.toNat
    else if F.ascii = false ∨ c.toNat ≤ 126 then [c]
    else if c.toNat < 0x10000 then unicodeEscape c.toNat
    else unicodeEscape (0xd800 + (c.toNat - 0x10000) / 1024) ++ unicodeEscape (0xdc00 + (c.toNat - 0x10000) % 1024)

def quote (s : String) : List Char := '"' :: s.toList.flatMap F.escapeChar ++ ['"']

def intText (z : Int) : List Char := if z < 0 then '-' :: Nat.toDigits 10 z.natAbs else Nat.toDigits 10 z.natAbs

/-- What stands after a comma and a colon. -/
def gap : List Char := if F.spaced then [' '] else []

mutual
def write : Json → List Char
  | .null => ['n', 'u', 'l', 'l']
  | .bool true => ['t', 'r', 'u', 'e']
  | .bool false => ['f', 'a', 'l', 's', 'e']
  | .int z => intText z
  | .float q => F.floatText q
  | .str s => F.quote s
  | .arr xs => '[' :: (',' :: F.gap).intercalate (writeItems xs) ++ [']']
  | .obj fields => '\x7b' :: (',' :: F.gap).intercalate (writeFields fields) ++ ['\x7d']
def writeItems : List Json → List (List Char)
  | [] => []
  | x :: xs => write x :: writeItems xs
def writeFields : List (String × Json) → List (List Char)
  | [] => []
  | (key, x) :: fields => (F.quote key ++ ':' :: F.gap ++ write x) :: writeFields fields
end

end JsonFormat

namespace Json

/-! ## Reading -/

/-- The value of a digit of `\u0000`. -/
def hexValue (c : Char) : Option Nat :=
  if c.isDigit then some (c.toNat - '0'.toNat)
  else if 'a' ≤ c ∧ c ≤ 'f' then some (c.toNat - 'a'.toNat + 10)
  else if 'A' ≤ c ∧ c ≤ 'F' then some (c.toNat - 'A'.toNat + 10)
  else none

/-- The number that four digits denote. -/
def readUnit : List Char → Option (Nat × List Char)
  | a :: b :: c :: d :: rest => do
    let a ← hexValue a
    let b ← hexValue b
    let c ← hexValue c
    let d ← hexValue d
    return (a * 4096 + b * 256 + c * 16 + d, rest)
  | _ => none

/-- The characters that a backslash and one letter denote. -/
def letterEscapes : List (Char × Char) :=
  [('"', '"'), ('\\', '\\'), ('/', '/'), ('b', '\x08'), ('f', '\x0c'), ('n', '\n'), ('r', '\r'), ('t', '\t')]

/-- The second surrogate of a pair. -/
def readLow (high : Nat) : List Char → Option (Char × List Char)
  | '\\' :: 'u' :: rest => do
    let (low, rest) ← readUnit rest
    if 0xdc00 ≤ low ∧ low < 0xe000 then
      some (Char.ofNat (0x10000 + (high - 0xd800) * 1024 + (low - 0xdc00)), rest)
    else none
  | _ => none

/-- What stands after a backslash. A surrogate alone is no character. -/
def readEscape : List Char → Option (Char × List Char)
  | 'u' :: rest => do
    let (n, rest) ← readUnit rest
    if n < 0xd800 ∨ 0xe000 ≤ n then some (Char.ofNat n, rest)
    else if n < 0xdc00 then readLow n rest
    else none
  | c :: rest => (letterEscapes.lookup c).map fun c => (c, rest)
  | [] => none

/-- The next character of a string, `none` at its end. -/
def readChar : List Char → Option (Option Char × List Char)
  | [] => none
  | c :: rest =>
    if c = '"' then some (none, rest)
    else if c = '\\' then (readEscape rest).map fun (c, rest) => (some c, rest)
    else if c.toNat < 32 then none
    else some (some c, rest)

/-- The rest of a string. -/
def readChars : Nat → List Char → Option (List Char × List Char)
  | 0, _ => none
  | fuel + 1, text => do
    match ← readChar text with
    | (none, rest) => return ([], rest)
    | (some c, rest) =>
      let (cs, rest) ← readChars fuel rest
      return (c :: cs, rest)

def isNumberChar (c : Char) : Bool := c.isDigit || "+-.eE".toList.contains c

def digits? (cs : List Char) : Option Nat :=
  if cs ≠ [] ∧ cs.all Char.isDigit = true then some (Nat.ofDigitChars 10 cs 0) else none

/-- Digits without a leading zero. -/
def natural? (cs : List Char) : Option Nat := if cs.head? = some '0' ∧ cs ≠ ['0'] then none else digits? cs

/-- A sign before a number. -/
def signed? {α : Type} [Neg α] (number? : List Char → Option α) : List Char → Option α
  | '-' :: cs => (number? cs).map (- ·)
  | cs => number? cs

def integer? (cs : List Char) : Option Int := signed? (fun cs => (natural? cs).map Int.ofNat) cs

/-- What stands after the `e`. -/
def exponent? (cs : List Char) : Option Int :=
  match cs with
  | '+' :: cs => (digits? cs).map Int.ofNat
  | cs => signed? (fun cs => (digits? cs).map Int.ofNat) cs

/-- A fraction or an exponent, or both, after the digits. The value is rounded as
the language's floats are. -/
def decimal? (cs : List Char) : Option Rat := do
  let (mantissa, exponent) := cs.span fun c => c ≠ 'e' && c ≠ 'E'
  let (whole, fraction) := mantissa.span (· ≠ '.')
  let n ← natural? whole
  let m ← if fraction = [] then some 0 else digits? fraction.tail
  let e ← if exponent = [] then some 0 else exponent? exponent.tail
  return binary64.round ((n + m / 10 ^ fraction.tail.length) * 10 ^ e)

def number? (cs : List Char) : Option Json :=
  match integer? cs with
  | some z => some (.int z)
  | none => (signed? decimal? cs).map .float

def readNumber (text : List Char) : Option (Json × List Char) :=
  (number? (text.takeWhile isNumberChar)).map fun x => (x, text.dropWhile isNumberChar)

def isBlankChar (c : Char) : Bool := " \t\n\r".toList.contains c

def skipBlanks (text : List Char) : List Char := text.dropWhile isBlankChar

/-- The values that are written as words. -/
def words : List (List Char × Json) :=
  [(['n', 'u', 'l', 'l'], .null), (['t', 'r', 'u', 'e'], .bool true), (['f', 'a', 'l', 's', 'e'], .bool false)]

def readWord (text : List Char) : Option (Json × List Char) :=
  (words.find? fun word => word.1.isPrefixOf text).map fun word => (word.2, text.drop word.1.length)

/-- `dict(fields)` -/
def ofFields (fields : List (String × Json)) : Json := ofDict (Dict.empty.update fields)

mutual
def readValue : Nat → List Char → Option (Json × List Char)
  | 0, _ => none
  | fuel + 1, text =>
    match skipBlanks text with
    | [] => none
    | c :: rest =>
      if c = '"' then (readChars fuel rest).map fun (cs, rest) => (.str (String.ofList cs), rest)
      else if c = '[' then (readItems fuel rest).map fun (xs, rest) => (.arr xs, rest)
      else if c = '\x7b' then (readFields fuel rest).map fun (fields, rest) => (ofFields fields, rest)
      else if isNumberChar c then readNumber (c :: rest)
      else readWord (c :: rest)
/-- The items up to the bracket. -/
def readItems : Nat → List Char → Option (List Json × List Char)
  | 0, _ => none
  | fuel + 1, text =>
    if (skipBlanks text).head? = some ']' then some ([], (skipBlanks text).tail)
    else do
      let (x, rest) ← readValue fuel text
      readMoreItems fuel x rest
/-- What stands after an item. -/
def readMoreItems : Nat → Json → List Char → Option (List Json × List Char)
  | 0, _, _ => none
  | fuel + 1, x, text =>
    match skipBlanks text with
    | ']' :: rest => some ([x], rest)
    | ',' :: rest => do
      let (y, rest) ← readValue fuel rest
      let (ys, rest) ← readMoreItems fuel y rest
      return (x :: ys, rest)
    | _ => none
def readFields : Nat → List Char → Option (List (String × Json) × List Char)
  | 0, _ => none
  | fuel + 1, text =>
    if (skipBlanks text).head? = some '\x7d' then some ([], (skipBlanks text).tail)
    else do
      let (field, rest) ← readField fuel text
      readMoreFields fuel field rest
def readField : Nat → List Char → Option ((String × Json) × List Char)
  | 0, _ => none
  | fuel + 1, text =>
    match skipBlanks text with
    | '"' :: rest => do
      let (key, rest) ← readChars fuel rest
      match skipBlanks rest with
      | ':' :: rest =>
        let (x, rest) ← readValue fuel rest
        return ((String.ofList key, x), rest)
      | _ => none
    | _ => none
def readMoreFields : Nat → String × Json → List Char → Option (List (String × Json) × List Char)
  | 0, _, _ => none
  | fuel + 1, field, text =>
    match skipBlanks text with
    | '\x7d' :: rest => some ([field], rest)
    | ',' :: rest => do
      let (field', rest) ← readField fuel rest
      let (fields, rest) ← readMoreFields fuel field' rest
      return (field :: fields, rest)
    | _ => none
end

/-- `json.loads(text)` -/
def loads (text : List Char) : Option Json := do
  let (x, rest) ← readValue (text.length + 1) text
  if skipBlanks rest = [] then some x else none

end Json

namespace JsonFormat

open Json

variable {F : JsonFormat}

/-! ## Characters of strings -/

theorem hexValue_hexDigit {n : Nat} (h : n < 16) : hexValue (Value.hexDigit n) = some n := by
  revert n
  decide

theorem readUnit_unicodeEscape {n : Nat} (h : n < 0x10000) (rest : List Char) :
    readUnit ((unicodeEscape n).drop 2 ++ rest) = some (n, rest) := by
  have hsum : n / 4096 * 4096 + n / 256 % 16 * 256 + n / 16 % 16 * 16 + n % 16 = n := by omega
  simp only [unicodeEscape, List.drop_succ_cons, List.drop_zero, List.cons_append, List.nil_append, readUnit,
    hexValue_hexDigit (show n / 4096 < 16 by omega), hexValue_hexDigit (Nat.mod_lt _ (by decide : 16 > 0)),
    Option.bind_eq_bind, Option.bind_some, Option.pure_def, hsum]

theorem unicodeEscape_eq (n : Nat) : unicodeEscape n = '\\' :: 'u' :: (unicodeEscape n).drop 2 := rfl

theorem readChar_unit {text rest : List Char} {n : Nat} (h : readUnit text = some (n, rest)) :
    readChar ('\\' :: 'u' :: text) =
      (if n < 0xd800 ∨ 0xe000 ≤ n then some (Char.ofNat n, rest)
        else if n < 0xdc00 then readLow n rest else none).map fun (c, rest) => (some c, rest) := by
  simp only [readChar, readEscape, h, Option.bind_eq_bind, Option.bind_some, reduceIte, show ¬ '\\' = '"' by decide]

/-- A character that is no surrogate, escaped alone. -/
theorem readChar_unicodeEscape {c : Char} (h : c.toNat < 0x10000) (rest : List Char) :
    readChar (unicodeEscape c.toNat ++ rest) = some (some c, rest) := by
  have hvalid : c.toNat < 0xd800 ∨ 0xe000 ≤ c.toNat := by
    have hc := c.valid
    simp only [UInt32.isValidChar, Nat.isValidChar] at hc
    exact hc.imp id fun hc => hc.1
  rw [unicodeEscape_eq, List.cons_append, List.cons_append, readChar_unit (readUnit_unicodeEscape h rest), if_pos hvalid,
    Char.ofNat_toNat]
  rfl

/-- A character past `\uffff`, escaped as two surrogates. -/
theorem readChar_surrogates {c : Char} (h : 0x10000 ≤ c.toNat) (rest : List Char) :
    readChar (unicodeEscape (0xd800 + (c.toNat - 0x10000) / 1024) ++
      (unicodeEscape (0xdc00 + (c.toNat - 0x10000) % 1024) ++ rest)) = some (some c, rest) := by
  have hmax : c.toNat < 0x110000 := by
    have hc := c.valid
    simp only [UInt32.isValidChar, Nat.isValidChar] at hc
    exact hc.elim (fun hc => lt_trans hc (by decide)) fun hc => hc.2
  have hhigh : 0xd800 + (c.toNat - 0x10000) / 1024 < 0xdc00 := by omega
  have hlow : 0xdc00 + (c.toNat - 0x10000) % 1024 < 0xe000 := by omega
  have hsum : 0x10000 + (0xd800 + (c.toNat - 0x10000) / 1024 - 0xd800) * 1024 +
      (0xdc00 + (c.toNat - 0x10000) % 1024 - 0xdc00) = c.toNat := by omega
  rw [unicodeEscape_eq, List.cons_append, List.cons_append, readChar_unit (readUnit_unicodeEscape (by omega) _),
    if_neg (by omega), if_pos hhigh, unicodeEscape_eq (0xdc00 + _), List.cons_append, List.cons_append, readLow,
    readUnit_unicodeEscape (by omega), Option.bind_eq_bind, Option.bind_some]
  dsimp only
  rw [if_pos ⟨by omega, hlow⟩, hsum, Char.ofNat_toNat]
  rfl

theorem readChar_plain {c : Char} (hquote : c ≠ '"') (hslash : c ≠ '\\') (h : ¬ c.toNat < 32) (rest : List Char) :
    readChar (c :: rest) = some (some c, rest) := by
  rw [readChar, if_neg hquote, if_neg hslash, if_neg h]

/-- What is written for a character is read as that character. -/
theorem readChar_escapeChar (c : Char) (rest : List Char) : readChar (F.escapeChar c ++ rest) = some (some c, rest) := by
  unfold escapeChar
  cases he : Value.shortEscapes.lookup c with
  | some e =>
    have hread : ∀ entry ∈ Value.shortEscapes, ∃ letter, entry.2.toList = ['\\', letter] ∧ letter ≠ 'u' ∧
        letterEscapes.lookup letter = some entry.1 := by
      simp only [Value.shortEscapes, List.forall_mem_cons, List.not_mem_nil, false_imp_iff, forall_const, and_true]
      refine ⟨⟨'\\', ?_⟩, ⟨'"', ?_⟩, ⟨'b', ?_⟩, ⟨'f', ?_⟩, ⟨'n', ?_⟩, ⟨'r', ?_⟩, ⟨'t', ?_⟩⟩ <;> decide
    obtain ⟨before, after, hentries, -⟩ := List.lookup_eq_some_iff.1 he
    obtain ⟨letter, htext, hletter, hlookup⟩ := hread (c, e) (by simp [hentries])
    dsimp only at htext hlookup ⊢
    rw [htext, List.cons_append, List.cons_append, List.nil_append, readChar, if_neg (by decide), if_pos rfl, readEscape,
      hlookup]
    · rfl
    · exact hletter
  | none =>
    dsimp only
    have hne : ∀ entry ∈ Value.shortEscapes, c ≠ entry.1 := by
      rintro entry hentry rfl
      exact absurd (List.lookup_eq_none_iff.1 he entry hentry) (by simp)
    split_ifs with hlt hplain hunit
    · exact readChar_unicodeEscape (by omega) rest
    · exact readChar_plain (hne ('"', "\\\"") (by decide)) (hne ('\\', "\\\\") (by decide)) hlt rest
    · exact readChar_unicodeEscape hunit rest
    · rw [List.append_assoc]
      exact readChar_surrogates (by omega) rest

theorem escapeChar_ne_nil (c : Char) : F.escapeChar c ≠ [] := by
  intro hnil
  have hread := readChar_escapeChar (F := F) c []
  rw [hnil] at hread
  cases hread

theorem length_le_flatMap (cs : List Char) : cs.length ≤ (cs.flatMap F.escapeChar).length := by
  induction cs with
  | nil => exact le_rfl
  | cons c cs ih =>
    have hpos := List.length_pos_iff.2 (escapeChar_ne_nil (F := F) c)
    rw [List.flatMap_cons, List.length_append, List.length_cons]
    omega

theorem readChars_flatMap {cs : List Char} {fuel : Nat} (h : cs.length < fuel) (rest : List Char) :
    readChars fuel (cs.flatMap F.escapeChar ++ '"' :: rest) = some (cs, rest) := by
  induction cs generalizing fuel with
  | nil =>
    obtain ⟨fuel, rfl⟩ := Nat.exists_eq_succ_of_ne_zero (by omega : fuel ≠ 0)
    rfl
  | cons c cs ih =>
    obtain ⟨fuel, rfl⟩ := Nat.exists_eq_succ_of_ne_zero (by omega : fuel ≠ 0)
    rw [List.flatMap_cons, List.append_assoc, readChars, readChar_escapeChar, Option.bind_eq_bind, Option.bind_some]
    dsimp only
    rw [ih (Nat.lt_of_succ_lt_succ h), Option.bind_eq_bind, Option.bind_some]
    rfl

/-! ## Numbers -/

/-- No digit, sign, point or exponent follows. -/
def Ends (rest : List Char) : Prop := ∀ c ∈ rest.head?, isNumberChar c = false

theorem ends_cons {c : Char} {rest : List Char} (h : isNumberChar c = false) : Ends (c :: rest) := by
  intro c' hc'
  rw [List.head?_cons, Option.mem_some_iff] at hc'
  exact hc' ▸ h

theorem readNumber_append {cs rest : List Char} {x : Json} (hcs : ∀ c ∈ cs, isNumberChar c = true)
    (hx : number? cs = some x) (hrest : Ends rest) : readNumber (cs ++ rest) = some (x, rest) := by
  have htake : rest.takeWhile isNumberChar = [] := by
    cases rest with
    | nil => rfl
    | cons c rest => rw [List.takeWhile_cons, hrest c rfl]; rfl
  have hdrop : rest.dropWhile isNumberChar = rest := by
    cases rest with
    | nil => rfl
    | cons c rest => rw [List.dropWhile_cons, hrest c rfl]; rfl
  rw [readNumber, List.takeWhile_append_of_pos hcs, List.dropWhile_append_of_pos hcs, htake, hdrop, List.append_nil, hx]
  rfl

theorem isNumberChar_of_isDigit {c : Char} (h : c.isDigit = true) : isNumberChar c = true := by
  rw [isNumberChar, h, Bool.true_or]

theorem isNumberChar_intText {z : Int} : ∀ c ∈ intText z, isNumberChar c = true := by
  have hdigits : ∀ c ∈ Nat.toDigits 10 z.natAbs, isNumberChar c = true := fun c hc =>
    isNumberChar_of_isDigit (Nat.isDigit_of_mem_toDigits (by decide) (by decide) hc)
  unfold intText
  split
  · exact List.forall_mem_cons.2 ⟨by decide, hdigits⟩
  · exact hdigits

/-- Only zero begins with a zero. -/
theorem head?_toDigits (n : Nat) : (Nat.toDigits 10 n).head? = some '0' → Nat.toDigits 10 n = ['0'] := by
  induction n using Nat.strongRecOn with
  | ind n ih =>
    by_cases hlt : n < 10
    · have hsmall : ∀ m < 10, [Nat.digitChar m].head? = some '0' → [Nat.digitChar m] = ['0'] := by decide
      rw [Nat.toDigits_of_lt_base hlt]
      exact hsmall n hlt
    · intro hhead
      rw [Nat.toDigits_of_base_le (by decide) (by omega), List.head?_append_of_ne_nil _ Nat.toDigits_ne_nil] at hhead
      have hzero := ih (n / 10) (by omega) hhead
      have hvalue := Nat.ofDigitChars_ten_toDigits (n := n / 10)
      rw [hzero] at hvalue
      have : n / 10 = 0 := hvalue.symm
      omega

theorem natural?_toDigits (n : Nat) : natural? (Nat.toDigits 10 n) = some n := by
  have hdigits : (Nat.toDigits 10 n).all Char.isDigit = true :=
    List.all_eq_true.2 fun c hc => Nat.isDigit_of_mem_toDigits (by decide) (by decide) hc
  rw [natural?, if_neg fun h => h.2 (head?_toDigits n h.1), digits?, if_pos ⟨Nat.toDigits_ne_nil, hdigits⟩,
    Nat.ofDigitChars_ten_toDigits]

theorem number?_intText (z : Int) : number? (intText z) = some (.int z) := by
  have hinteger : integer? (intText z) = some z := by
    unfold integer? intText
    split
    · rw [signed?, natural?_toDigits, Option.map_some, Option.map_some, Int.ofNat_eq_natCast]
      congr 1
      omega
    · rw [signed?, natural?_toDigits, Option.map_some, Int.ofNat_eq_natCast]
      · congr 1
        omega
      · intro cs hcs
        have hminus := Nat.isDigit_of_mem_toDigits (by decide) (by decide) (hcs ▸ List.mem_cons_self ..)
        exact absurd hminus (by decide)
  rw [number?, hinteger]

/-! ## Values -/

/-- The reader reads back how the language writes a float. -/
def ReadsFloat (F : JsonFormat) (q : Rat) : Prop :=
  number? (F.floatText q) = some (.float q) ∧ ∀ c ∈ F.floatText q, isNumberChar c = true

mutual
/-- The floats of a value are read back, and no object of it has a key twice. -/
def Reads (F : JsonFormat) : Json → Prop
  | .float q => F.ReadsFloat q
  | .arr xs => F.ReadsItems xs
  | .obj fields => (fields.map Prod.fst).Nodup ∧ F.ReadsFields fields
  | .null | .bool _ | .int _ | .str _ => True
def ReadsItems (F : JsonFormat) : List Json → Prop
  | [] => True
  | x :: xs => F.Reads x ∧ F.ReadsItems xs
def ReadsFields (F : JsonFormat) : List (String × Json) → Prop
  | [] => True
  | (_, x) :: fields => F.Reads x ∧ F.ReadsFields fields
end

theorem skipBlanks_cons {c : Char} (h : isBlankChar c = false) (rest : List Char) : skipBlanks (c :: rest) = c :: rest := by
  rw [skipBlanks, List.dropWhile_cons, h]
  rfl

theorem skipBlanks_gap (text : List Char) : skipBlanks (F.gap ++ text) = skipBlanks text := by
  unfold gap
  split
  · rfl
  · rfl

theorem readValue_gap (fuel : Nat) (text : List Char) : readValue fuel (F.gap ++ text) = readValue fuel text := by
  cases fuel with
  | zero => rfl
  | succ fuel => rw [readValue, readValue, skipBlanks_gap]

theorem readField_gap (fuel : Nat) (text : List Char) : readField fuel (F.gap ++ text) = readField fuel text := by
  cases fuel with
  | zero => rfl
  | succ fuel => rw [readField, readField, skipBlanks_gap]

/-- A value begins with a character that is no blank and closes nothing. -/
structure Opens (c : Char) : Prop where
  blank : isBlankChar c = false
  bracket : c ≠ ']'

theorem opens_of_number {c : Char} (h : isNumberChar c = true) : Opens c := by
  constructor
  · have hblanks : ∀ c' ∈ " \t\n\r".toList, isNumberChar c' = false := List.all_iff_forall_prop.1 (by decide)
    by_contra hblank
    rw [Bool.not_eq_false, isBlankChar, List.contains_iff_mem] at hblank
    rw [hblanks c hblank] at h
    cases h
  · rintro rfl
    revert h
    decide

/-- What stands after the first of some items. -/
def more (F : JsonFormat) (texts : List (List Char)) : List Char := texts.flatMap fun text => ',' :: F.gap ++ text

theorem intercalate_cons (text : List Char) (texts : List (List Char)) :
    (',' :: F.gap).intercalate (text :: texts) = text ++ F.more texts := by
  induction texts generalizing text with
  | nil => simp [more]
  | cons text' texts ih => simp [List.intercalate_cons_cons, ih, more]

theorem ends_more (texts : List (List Char)) {c : Char} (hc : isNumberChar c = false) (rest : List Char) :
    Ends (F.more texts ++ c :: rest) := by
  cases texts with
  | nil => exact ends_cons hc
  | cons text texts => exact ends_cons (by decide)

theorem write_opens {x : Json} (h : F.Reads x) : ∃ c text, F.write x = c :: text ∧ Opens c := by
  have hnumber : ∀ {cs : List Char} {x : Json}, number? cs = some x → (∀ c ∈ cs, isNumberChar c = true) →
      ∃ c text, cs = c :: text ∧ Opens c := by
    intro cs x hcs hall
    cases cs with
    | nil => cases hcs
    | cons c text => exact ⟨c, text, rfl, opens_of_number (hall c (List.mem_cons_self ..))⟩
  cases x with
  | null => exact ⟨_, _, rfl, by decide, by decide⟩
  | bool b => cases b <;> exact ⟨_, _, rfl, by decide, by decide⟩
  | int z => exact hnumber (number?_intText z) isNumberChar_intText
  | float q => exact hnumber h.1 h.2
  | str s => exact ⟨_, _, rfl, by decide, by decide⟩
  | arr xs => exact ⟨_, _, rfl, by decide, by decide⟩
  | obj fields => exact ⟨_, _, rfl, by decide, by decide⟩

/-- A number is read as such wherever a value may stand. -/
theorem readValue_number {cs rest : List Char} {x : Json} {fuel : Nat} (hfuel : 0 < fuel)
    (hcs : ∀ c ∈ cs, isNumberChar c = true) (hx : number? cs = some x) (hrest : Ends rest) :
    readValue fuel (cs ++ rest) = some (x, rest) := by
  obtain ⟨fuel, rfl⟩ := Nat.exists_eq_succ_of_ne_zero hfuel.ne'
  cases cs with
  | nil => cases hx
  | cons c cs =>
    have hc := hcs c (List.mem_cons_self ..)
    have hne : ∀ c' : Char, isNumberChar c' = false → c ≠ c' := by
      rintro c' hc' rfl
      rw [hc] at hc'
      cases hc'
    rw [List.cons_append, readValue, skipBlanks_cons (opens_of_number hc).blank]
    dsimp only
    rw [if_neg (hne '"' (by decide)), if_neg (hne '[' (by decide)), if_neg (hne '\x7b' (by decide)), if_pos hc,
      ← List.cons_append, readNumber_append hcs hx hrest]

theorem readValue_quote {s : String} {fuel : Nat} (h : (F.quote s).length < fuel + 1) (rest : List Char) :
    readValue (fuel + 1) (F.quote s ++ rest) = some (.str s, rest) := by
  have hlength := length_le_flatMap (F := F) s.toList
  rw [quote, List.length_append, List.length_cons, List.length_singleton] at h
  rw [quote, List.cons_append, List.cons_append, List.append_assoc, List.singleton_append, readValue,
    skipBlanks_cons (by decide)]
  dsimp only
  rw [if_pos rfl, readChars_flatMap (by omega), Option.map_some, String.ofList_toList]

theorem ofFields_of_nodup {fields : List (String × Json)} (h : (fields.map Prod.fst).Nodup) :
    ofFields fields = .obj fields := by
  rw [ofFields, ofDict, Dict.entries_update_of_nodup]
  · rfl
  · exact h

theorem readMoreItems_comma (fuel : Nat) (x : Json) (text : List Char) :
    readMoreItems (fuel + 1) x (',' :: text) = (do
      let (y, rest) ← readValue fuel text
      let (ys, rest) ← readMoreItems fuel y rest
      return (x :: ys, rest)) := rfl

theorem readMoreFields_comma (fuel : Nat) (field : String × Json) (text : List Char) :
    readMoreFields (fuel + 1) field (',' :: text) = (do
      let (field', rest) ← readField fuel text
      let (fields, rest) ← readMoreFields fuel field' rest
      return (field :: fields, rest)) := rfl

theorem readField_of_key {fuel : Nat} {text key rest : List Char} (h : readChars fuel text = some (key, ':' :: rest)) :
    readField (fuel + 1) ('"' :: text) = (do
      let (x, rest) ← readValue fuel rest
      return ((String.ofList key, x), rest)) := by
  have hread : readField (fuel + 1) ('"' :: text) = (do
      let (key, rest) ← readChars fuel text
      match skipBlanks rest with
      | ':' :: rest =>
        let (x, rest) ← readValue fuel rest
        return ((String.ofList key, x), rest)
      | _ => none) := rfl
  rw [hread, h]
  rfl

/-- One field, in front of a character that no number has. -/
theorem readField_write {key : String} {x : Json} {fuel : Nat} {rest : List Char}
    (hx : ∀ fuel, (F.write x).length < fuel → readValue fuel (F.write x ++ rest) = some (x, rest))
    (h : (F.quote key ++ ':' :: F.gap ++ F.write x).length < fuel) :
    readField fuel (F.quote key ++ ':' :: F.gap ++ F.write x ++ rest) = some ((key, x), rest) := by
  obtain ⟨fuel, rfl⟩ := Nat.exists_eq_succ_of_ne_zero (by omega : fuel ≠ 0)
  have hlength := length_le_flatMap (F := F) key.toList
  simp only [quote, List.length_append, List.length_cons, List.length_nil] at h
  have hshape : F.quote key ++ ':' :: F.gap ++ F.write x ++ rest =
      '"' :: (key.toList.flatMap F.escapeChar ++ '"' :: ':' :: (F.gap ++ (F.write x ++ rest))) := by
    simp [quote]
  rw [hshape, readField_of_key (readChars_flatMap (by omega) _), readValue_gap, hx fuel (by omega), Option.bind_eq_bind,
    Option.bind_some, String.ofList_toList]
  rfl

mutual
/-- What is written is read back, up to where it ends. -/
theorem readValue_write : ∀ (x : Json) {fuel : Nat} {rest : List Char}, F.Reads x → (F.write x).length < fuel → Ends rest →
    readValue fuel (F.write x ++ rest) = some (x, rest)
  | x, 0, _, _, hfuel, _ => absurd hfuel (Nat.not_lt_zero _)
  | .null, fuel + 1, rest, _, _, _ | .bool true, fuel + 1, rest, _, _, _ | .bool false, fuel + 1, rest, _, _, _ => rfl
  | .int z, fuel + 1, rest, _, _, hrest => readValue_number (Nat.succ_pos fuel) isNumberChar_intText (number?_intText z) hrest
  | .float q, fuel + 1, rest, h, _, hrest => readValue_number (Nat.succ_pos fuel) h.2 h.1 hrest
  | .str s, fuel + 1, rest, _, hfuel, _ => readValue_quote hfuel rest
  | .arr xs, fuel + 1, rest, h, hfuel, _ => by
    rw [write, List.length_append, List.length_cons, List.length_singleton] at hfuel
    rw [write, List.append_assoc, List.cons_append, List.singleton_append, readValue, skipBlanks_cons (by decide)]
    dsimp only
    rw [if_neg (by decide), if_pos rfl, readItems_write xs h (by omega)]
    rfl
  | .obj fields, fuel + 1, rest, h, hfuel, _ => by
    rw [write, List.length_append, List.length_cons, List.length_singleton] at hfuel
    rw [write, List.append_assoc, List.cons_append, List.singleton_append, readValue, skipBlanks_cons (by decide)]
    dsimp only
    rw [if_neg (by decide), if_neg (by decide), if_pos rfl, readFields_write fields h.2 (by omega), Option.map_some]
    exact congrArg (fun x => some (x, rest)) (ofFields_of_nodup h.1)
theorem readItems_write : ∀ (xs : List Json) {fuel : Nat} {rest : List Char}, F.ReadsItems xs →
    ((',' :: F.gap).intercalate (F.writeItems xs)).length + 1 < fuel →
    readItems fuel ((',' :: F.gap).intercalate (F.writeItems xs) ++ ']' :: rest) = some (xs, rest)
  | xs, 0, _, _, hfuel => absurd hfuel (Nat.not_lt_zero _)
  | [], fuel + 1, rest, _, _ => rfl
  | x :: xs, fuel + 1, rest, h, hfuel => by
    rw [writeItems, intercalate_cons, List.length_append] at hfuel
    obtain ⟨c, text, htext, hopens⟩ := write_opens h.1
    have hhead : (skipBlanks (F.write x ++ (F.more (F.writeItems xs) ++ ']' :: rest))).head? ≠ some ']' := by
      rw [htext, List.cons_append, skipBlanks_cons hopens.blank]
      exact fun hc => hopens.bracket (Option.some.inj hc)
    rw [writeItems, intercalate_cons, List.append_assoc, readItems, if_neg hhead,
      readValue_write x h.1 (by omega) (ends_more _ (by decide) rest), Option.bind_eq_bind, Option.bind_some]
    exact readMoreItems_write xs x h.2 (by omega)
theorem readMoreItems_write : ∀ (xs : List Json) (x : Json) {fuel : Nat} {rest : List Char}, F.ReadsItems xs →
    (F.more (F.writeItems xs)).length < fuel →
    readMoreItems fuel x (F.more (F.writeItems xs) ++ ']' :: rest) = some (x :: xs, rest)
  | xs, x, 0, _, _, hfuel => absurd hfuel (Nat.not_lt_zero _)
  | [], x, fuel + 1, rest, _, _ => rfl
  | y :: ys, x, fuel + 1, rest, h, hfuel => by
    have hshape : F.more (F.writeItems (y :: ys)) = ',' :: (F.gap ++ (F.write y ++ F.more (F.writeItems ys))) := by
      simp [writeItems, more]
    rw [hshape, List.length_cons, List.length_append, List.length_append] at hfuel
    rw [hshape, List.cons_append, List.append_assoc, List.append_assoc, readMoreItems_comma, readValue_gap,
      readValue_write y h.1 (by omega) (ends_more _ (by decide) rest), Option.bind_eq_bind, Option.bind_some]
    dsimp only
    rw [readMoreItems_write ys y h.2 (by omega), Option.bind_eq_bind, Option.bind_some]
    rfl
theorem readFields_write : ∀ (fields : List (String × Json)) {fuel : Nat} {rest : List Char}, F.ReadsFields fields →
    ((',' :: F.gap).intercalate (F.writeFields fields)).length + 1 < fuel →
    readFields fuel ((',' :: F.gap).intercalate (F.writeFields fields) ++ '\x7d' :: rest) = some (fields, rest)
  | fields, 0, _, _, hfuel => absurd hfuel (Nat.not_lt_zero _)
  | [], fuel + 1, rest, _, _ => rfl
  | (key, x) :: fields, fuel + 1, rest, h, hfuel => by
    rw [writeFields, intercalate_cons, List.length_append] at hfuel
    have hhead : (skipBlanks (F.quote key ++ ':' :: F.gap ++ F.write x ++
        (F.more (F.writeFields fields) ++ '\x7d' :: rest))).head? ≠ some '\x7d' := by
      simp [quote, skipBlanks_cons (show isBlankChar '"' = false by decide)]
    rw [writeFields, intercalate_cons, List.append_assoc, readFields, if_neg hhead, readField_write
      (fun fuel hlt => readValue_write x h.1 hlt (ends_more _ (by decide) rest)) (by omega), Option.bind_eq_bind,
      Option.bind_some]
    exact readMoreFields_write fields (key, x) h.2 (by omega)
theorem readMoreFields_write : ∀ (fields : List (String × Json)) (field : String × Json) {fuel : Nat} {rest : List Char},
    F.ReadsFields fields → (F.more (F.writeFields fields)).length < fuel →
    readMoreFields fuel field (F.more (F.writeFields fields) ++ '\x7d' :: rest) = some (field :: fields, rest)
  | fields, field, 0, _, _, hfuel => absurd hfuel (Nat.not_lt_zero _)
  | [], field, fuel + 1, rest, _, _ => rfl
  | (key, x) :: fields, field, fuel + 1, rest, h, hfuel => by
    have hshape : F.more (F.writeFields ((key, x) :: fields)) =
        ',' :: (F.gap ++ (F.quote key ++ ':' :: F.gap ++ F.write x ++ F.more (F.writeFields fields))) := by
      simp [writeFields, more]
    rw [hshape, List.length_cons, List.length_append, List.length_append] at hfuel
    rw [hshape, List.cons_append, List.append_assoc, List.append_assoc, readMoreFields_comma, readField_gap,
      readField_write (fun fuel hlt => readValue_write x h.1 hlt (ends_more _ (by decide) rest)) (by omega),
      Option.bind_eq_bind, Option.bind_some]
    dsimp only
    rw [readMoreFields_write fields (key, x) h.2 (by omega), Option.bind_eq_bind, Option.bind_some]
    rfl
end

/-- The reader reads back what is written. -/
theorem loads_write {x : Json} (h : F.Reads x) : loads (F.write x) = some x := by
  have hvalue := @readValue_write F x ((F.write x).length + 1) [] h (Nat.lt_succ_self _) fun _ hc => nomatch hc
  rw [List.append_nil] at hvalue
  rw [loads, hvalue]
  rfl

/-! ## One line -/

/-- A character that is no control character. -/
def Printable (c : Char) : Prop := 32 ≤ c.toNat

instance : DecidablePred Printable := fun c => inferInstanceAs (Decidable (32 ≤ c.toNat))

theorem printable_hexDigit (n : Nat) : Printable (Value.hexDigit n) := by
  by_cases hn : n < 16
  · revert n
    decide
  · have hnone : "0123456789abcdef".toList[n]? = none := List.getElem?_eq_none (Nat.not_lt.1 hn)
    rw [Value.hexDigit, List.getD_eq_getElem?_getD, hnone]
    decide

theorem printable_unicodeEscape (n : Nat) : ∀ c ∈ unicodeEscape n, Printable c := by
  simp only [unicodeEscape, List.forall_mem_cons, List.not_mem_nil, false_imp_iff, forall_const, and_true]
  exact ⟨by decide, by decide, printable_hexDigit _, printable_hexDigit _, printable_hexDigit _, printable_hexDigit _⟩

theorem printable_escapeChar (c : Char) : ∀ c' ∈ F.escapeChar c, Printable c' := by
  unfold escapeChar
  cases he : Value.shortEscapes.lookup c with
  | some e =>
    have hescapes : Value.shortEscapes.all (fun entry => entry.2.toList.all fun c' => decide (Printable c')) = true := by
      decide
    obtain ⟨before, after, hentries, -⟩ := List.lookup_eq_some_iff.1 he
    exact List.all_iff_forall_prop.1 (List.all_eq_true.1 hescapes (c, e) (by simp [hentries]))
  | none =>
    dsimp only
    split_ifs with hlt
    · exact printable_unicodeEscape _
    · exact List.forall_mem_singleton.2 (Nat.not_lt.1 hlt)
    · exact printable_unicodeEscape _
    · exact List.forall_mem_append.2 ⟨printable_unicodeEscape _, printable_unicodeEscape _⟩

theorem printable_of_isNumberChar {c : Char} (h : isNumberChar c = true) : Printable c := by
  have hsigns : ∀ c ∈ "+-.eE".toList, Printable c := List.all_iff_forall_prop.1 (by decide)
  rw [isNumberChar, Bool.or_eq_true, List.contains_iff_mem] at h
  rcases h with hdigit | hsign
  · have hzero : 48 ≤ c.toNat := (Char.isDigit_iff_toNat.1 hdigit).1
    exact le_trans (by decide) hzero
  · exact hsigns c hsign

theorem printable_quote (s : String) : ∀ c ∈ F.quote s, Printable c := by
  rw [quote, List.cons_append]
  refine List.forall_mem_cons.2 ⟨by decide, List.forall_mem_append.2 ⟨fun c hc => ?_, List.forall_mem_singleton.2 (by decide)⟩⟩
  obtain ⟨c', -, hc'⟩ := List.mem_flatMap.1 hc
  exact printable_escapeChar c' c hc'

theorem printable_gap : ∀ c ∈ F.gap, Printable c := by
  unfold gap
  split <;> exact List.all_iff_forall_prop.1 (by decide)

theorem printable_intercalate {texts : List (List Char)} (h : ∀ text ∈ texts, ∀ c ∈ text, Printable c) :
    ∀ c ∈ (',' :: F.gap).intercalate texts, Printable c := by
  cases texts with
  | nil => exact fun c hc => nomatch hc
  | cons text texts =>
    rw [List.forall_mem_cons] at h
    rw [intercalate_cons, more]
    refine List.forall_mem_append.2 ⟨h.1, fun c hc => ?_⟩
    obtain ⟨text', htext', hc⟩ := List.mem_flatMap.1 hc
    rw [List.cons_append, List.mem_cons, List.mem_append] at hc
    rcases hc with rfl | hgap | hmem
    · decide
    · exact printable_gap c hgap
    · exact h.2 text' htext' c hmem

mutual
/-- No control character is written. -/
theorem printable_write : ∀ {x : Json}, F.Reads x → ∀ c ∈ F.write x, Printable c
  | .null, _ => List.all_iff_forall_prop.1 (by decide : ['n', 'u', 'l', 'l'].all (fun c => decide (Printable c)) = true)
  | .bool true, _ =>
    List.all_iff_forall_prop.1 (by decide : ['t', 'r', 'u', 'e'].all (fun c => decide (Printable c)) = true)
  | .bool false, _ =>
    List.all_iff_forall_prop.1 (by decide : ['f', 'a', 'l', 's', 'e'].all (fun c => decide (Printable c)) = true)
  | .int z, _ => fun c hc => printable_of_isNumberChar (isNumberChar_intText c hc)
  | .float q, h => fun c hc => printable_of_isNumberChar (h.2 c hc)
  | .str s, _ => printable_quote s
  | .arr xs, h => by
    rw [write, List.cons_append]
    exact List.forall_mem_cons.2 ⟨by decide, List.forall_mem_append.2
      ⟨printable_intercalate (printable_writeItems h), List.forall_mem_singleton.2 (by decide)⟩⟩
  | .obj fields, h => by
    rw [write, List.cons_append]
    exact List.forall_mem_cons.2 ⟨by decide, List.forall_mem_append.2
      ⟨printable_intercalate (printable_writeFields h.2), List.forall_mem_singleton.2 (by decide)⟩⟩
theorem printable_writeItems : ∀ {xs : List Json}, F.ReadsItems xs → ∀ text ∈ F.writeItems xs, ∀ c ∈ text, Printable c
  | [], _ => fun _ htext => nomatch htext
  | _ :: _, h => List.forall_mem_cons.2 ⟨printable_write h.1, printable_writeItems h.2⟩
theorem printable_writeFields : ∀ {fields : List (String × Json)}, F.ReadsFields fields →
    ∀ text ∈ F.writeFields fields, ∀ c ∈ text, Printable c
  | [], _ => fun _ htext => nomatch htext
  | (key, x) :: _, h => by
    refine List.forall_mem_cons.2 ⟨?_, printable_writeFields h.2⟩
    refine List.forall_mem_append.2 ⟨List.forall_mem_append.2 ⟨printable_quote key, ?_⟩, printable_write h.1⟩
    exact List.forall_mem_cons.2 ⟨by decide, printable_gap⟩
end

/-- What is written is one line. -/
theorem newline_notMem_write {x : Json} (h : F.Reads x) : '\n' ∉ F.write x :=
  fun hmem => absurd (printable_write h '\n' hmem) (by decide)

end JsonFormat

end Ochestrate
