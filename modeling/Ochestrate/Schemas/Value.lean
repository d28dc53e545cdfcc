import Ochestrate.Framework.Fault
import Ochestrate.Framework.Text
import Mathlib.Data.Rat.Defs

/-!
# Values and their JSON texts

A value that a tool can be handed: a JSON value, whose strings may have
surrogates, or something else (`other`). `dumps` is `json.dumps` with
`ensure_ascii=False`. Every control character is escaped, so the text of a JSON
value has no carriage return (`carriageReturn_notMem_dumps`).
-/

namespace Ochestrate

/-- A value of the language; `κ` are the values that are not JSON values. -/
inductive Value (κ : Type) where
  | none
  | bool (b : Bool)
  | int (z : Int)
  | float (q : Rat)
  | str (t : Text)
  | list (xs : List (Value κ))
  | dict (fields : List (Text × Value κ))
  | other (o : κ)

/-- How the language writes floats, and what `json.dumps` makes of the values
that are not JSON values, with the indentation they stand at. -/
structure JsonWriter (κ : Type) where
  floatText : Rat → Text
  other : Option Nat → Nat → κ → Except Exc Text
  floatText_line (q : Rat) : carriageReturn ∉ floatText q

namespace Value

variable {κ : Type}

/-- A digit of `\u0000`. -/
def hexDigit (n : Nat) : Char := "0123456789abcdef".toList.getD n '0'

/-- The escapes of two characters. -/
def shortEscapes : List (Char × String) :=
  [('\\', "\\\\"), ('"', "\\\""), ('\x08', "\\b"), ('\x0c', "\\f"), ('\n', "\\n"), ('\r', "\\r"),
    ('\t', "\\t")]

/-- A character in a string. -/
def escaped : CodePoint → Text
  | .surrogate n => [.surrogate n]
  | .scalar c =>
    match shortEscapes.lookup c with
    | some e => Text.of e
    | Option.none =>
      if c.toNat < 32 then
        Text.of "\\u00" ++ [.scalar (hexDigit (c.toNat / 16)), .scalar (hexDigit (c.toNat % 16))]
      else [.scalar c]

def quoted (t : Text) : Text := .of "\"" ++ t.flatMap escaped ++ .of "\""

/-- The line that an item at a level begins. -/
def newline (indent : Option Nat) (level : Nat) : Text :=
  match indent with
  | Option.none => []
  | some n => lineFeed :: List.replicate (n * level) (.scalar ' ')

/-- What stands between two items. -/
def itemSeparator (indent : Option Nat) (level : Nat) : Text :=
  match indent with
  | Option.none => .of ", "
  | some _ => .of "," ++ newline indent level

/-- The items of a list or an object, whose brackets stand at a level. -/
def bracketed (opening closing : String) (indent : Option Nat) (level : Nat) (items : List Text) : Text :=
  if items = [] then .of opening ++ .of closing
  else .of opening ++ newline indent (level + 1) ++ (itemSeparator indent (level + 1)).intercalate items ++
    newline indent level ++ .of closing

mutual
def dumpsAt (W : JsonWriter κ) (indent : Option Nat) (level : Nat) : Value κ → Except Exc Text
  | none => .ok (.of "null")
  | bool b => .ok (.of (if b then "true" else "false"))
  | int z => .ok (.of z.repr)
  | float q => .ok (W.floatText q)
  | str t => .ok (quoted t)
  | list xs => (dumpsItems W indent (level + 1) xs).map (bracketed "[" "]" indent level)
  | dict fields => (dumpsFields W indent (level + 1) fields).map (bracketed "\x7b" "\x7d" indent level)
  | other o => W.other indent level o
def dumpsItems (W : JsonWriter κ) (indent : Option Nat) (level : Nat) : List (Value κ) → Except Exc (List Text)
  | [] => .ok []
  | x :: xs => do
    let item ← dumpsAt W indent level x
    let items ← dumpsItems W indent level xs
    return item :: items
def dumpsFields (W : JsonWriter κ) (indent : Option Nat) (level : Nat) :
    List (Text × Value κ) → Except Exc (List Text)
  | [] => .ok []
  | (key, x) :: fields => do
    let item ← dumpsAt W indent level x
    let items ← dumpsFields W indent level fields
    return (quoted key ++ .of ": " ++ item) :: items
end

/-- `json.dumps(value, ensure_ascii=False, indent=indent)` -/
def dumps (W : JsonWriter κ) (indent : Option Nat) (value : Value κ) : Except Exc Text := dumpsAt W indent 0 value

mutual
/-- The value and its parts are JSON values. -/
def isJson : Value κ → Bool
  | none | bool _ | int _ | float _ | str _ => true
  | list xs => allJson xs
  | dict fields => fieldsJson fields
  | other _ => false
def allJson : List (Value κ) → Bool
  | [] => true
  | x :: xs => isJson x && allJson xs
def fieldsJson : List (Text × Value κ) → Bool
  | [] => true
  | (_, x) :: fields => isJson x && fieldsJson fields
end

/-! ## No carriage return -/

/-- A text without carriage returns. -/
def Plain (t : Text) : Prop := carriageReturn ∉ t

theorem plain_nil : Plain [] := List.not_mem_nil

theorem plain_append {t t' : Text} (h : Plain t) (h' : Plain t') : Plain (t ++ t') := by
  unfold Plain
  rw [List.mem_append, not_or]
  exact ⟨h, h'⟩

theorem plain_of {s : String} (h : '\r' ∉ s.toList) : Plain (Text.of s) := by
  intro hmem
  obtain ⟨c, hc, heq⟩ := List.mem_map.1 hmem
  cases heq
  exact h hc

theorem hexDigit_ne (n : Nat) : hexDigit n ≠ '\r' := by
  by_cases hn : n < 16
  · revert n
    decide
  · have hnone : "0123456789abcdef".toList[n]? = Option.none := List.getElem?_eq_none (Nat.not_lt.1 hn)
    rw [hexDigit, List.getD_eq_getElem?_getD, hnone]
    decide

theorem plain_escaped (c : CodePoint) : Plain (escaped c) := by
  cases c with
  | surrogate n => simp [escaped, Plain, carriageReturn]
  | scalar c =>
    cases he : shortEscapes.lookup c with
    | some e =>
      have hplain : ∀ entry ∈ shortEscapes, '\r' ∉ entry.2.toList := by decide
      obtain ⟨before, after, hentries, -⟩ := List.lookup_eq_some_iff.1 he
      simp only [escaped, he]
      exact plain_of (hplain (c, e) (by simp [hentries]))
    | none =>
      have hne : c ≠ '\r' := by
        rintro rfl
        exact absurd he (by decide)
      simp only [escaped, he]
      split
      · refine plain_append (plain_of (by decide : '\r' ∉ "\\u00".toList)) ?_
        simp [Plain, carriageReturn, Ne.symm (hexDigit_ne _)]
      · simp [Plain, carriageReturn, Ne.symm hne]

theorem plain_quoted (t : Text) : Plain (quoted t) := by
  refine plain_append (plain_append (plain_of (by decide)) fun hmem => ?_) (plain_of (by decide))
  obtain ⟨c, -, hc⟩ := List.mem_flatMap.1 hmem
  exact plain_escaped c hc

theorem plain_int (z : Int) : Plain (.of z.repr) := by
  have hnat : ∀ n : Nat, '\r' ∉ n.repr.toList := by
    intro n hmem
    rw [Nat.toList_repr] at hmem
    exact absurd (Nat.isDigit_of_mem_toDigits (by decide) (by decide) hmem) (by decide)
  cases z with
  | ofNat n => exact plain_of (hnat n)
  | negSucc n =>
    refine plain_of ?_
    simp only [Int.repr, String.toList_append, List.mem_append, not_or]
    exact ⟨by decide, hnat _⟩

theorem plain_newline (indent : Option Nat) (level : Nat) : Plain (newline indent level) := by
  cases indent with
  | none => exact plain_nil
  | some n => simp [newline, Plain, carriageReturn, lineFeed, List.mem_replicate]

theorem plain_itemSeparator (indent : Option Nat) (level : Nat) : Plain (itemSeparator indent level) := by
  cases indent with
  | none => exact plain_of (by decide)
  | some n => exact plain_append (plain_of (by decide)) (plain_newline _ _)

theorem plain_intercalate {separator : Text} {items : List Text} (hs : Plain separator)
    (h : ∀ item ∈ items, Plain item) : Plain (separator.intercalate items) := by
  induction items with
  | nil => exact plain_nil
  | cons item items ih =>
    cases items with
    | nil => simpa using h
    | cons item' items =>
      rw [List.intercalate_cons_cons]
      have hrest := ih fun item hmem => h item (List.mem_cons_of_mem _ hmem)
      exact plain_append (plain_append (h item (List.mem_cons_self ..)) hs) hrest

theorem plain_bracketed {opening closing : String} (ho : '\r' ∉ opening.toList) (hc : '\r' ∉ closing.toList)
    (indent : Option Nat) (level : Nat) {items : List Text} (h : ∀ item ∈ items, Plain item) :
    Plain (bracketed opening closing indent level items) := by
  unfold bracketed
  split
  · exact plain_append (plain_of ho) (plain_of hc)
  · refine plain_append (plain_append (plain_append (plain_append (plain_of ho) (plain_newline _ _)) ?_)
      (plain_newline _ _)) (plain_of hc)
    exact plain_intercalate (plain_itemSeparator _ _) h

section Dumps

variable (W : JsonWriter κ) (indent : Option Nat)

mutual
theorem plain_dumpsAt : ∀ (level : Nat) (value : Value κ) {t : Text}, isJson value = true →
    dumpsAt W indent level value = .ok t → Plain t
  | level, none, t, _, h | level, bool true, t, _, h | level, bool false, t, _, h => by
    rw [← Except.ok.inj h]
    exact plain_of (by decide)
  | level, int z, t, _, h => Except.ok.inj h ▸ plain_int z
  | level, float q, t, _, h => Except.ok.inj h ▸ W.floatText_line q
  | level, str s, t, _, h => Except.ok.inj h ▸ plain_quoted s
  | level, list xs, t, hjson, h => by
    rw [isJson] at hjson
    rw [dumpsAt] at h
    cases hitems : dumpsItems W indent (level + 1) xs with
    | error exc => rw [hitems] at h; cases h
    | ok items =>
      rw [hitems] at h
      rw [← Except.ok.inj h]
      exact plain_bracketed (by decide) (by decide) indent level (plain_dumpsItems (level + 1) xs hjson hitems)
  | level, dict fields, t, hjson, h => by
    rw [isJson] at hjson
    rw [dumpsAt] at h
    cases hitems : dumpsFields W indent (level + 1) fields with
    | error exc => rw [hitems] at h; cases h
    | ok items =>
      rw [hitems] at h
      rw [← Except.ok.inj h]
      exact plain_bracketed (by decide) (by decide) indent level (plain_dumpsFields (level + 1) fields hjson hitems)
theorem plain_dumpsItems : ∀ (level : Nat) (xs : List (Value κ)) {items : List Text}, allJson xs = true →
    dumpsItems W indent level xs = .ok items → ∀ item ∈ items, Plain item
  | level, [], items, _, h => by
    rw [← Except.ok.inj h]
    simp
  | level, x :: xs, items, hjson, h => by
    rw [allJson, Bool.and_eq_true] at hjson
    rw [dumpsItems] at h
    cases hitem : dumpsAt W indent level x with
    | error exc => rw [hitem] at h; cases h
    | ok item =>
      cases hrest : dumpsItems W indent level xs with
      | error exc => rw [hitem, hrest] at h; cases h
      | ok rest =>
        rw [hitem, hrest] at h
        rw [← Except.ok.inj h]
        exact List.forall_mem_cons.2 ⟨plain_dumpsAt level x hjson.1 hitem, plain_dumpsItems level xs hjson.2 hrest⟩
theorem plain_dumpsFields : ∀ (level : Nat) (fields : List (Text × Value κ)) {items : List Text},
    fieldsJson fields = true → dumpsFields W indent level fields = .ok items → ∀ item ∈ items, Plain item
  | level, [], items, _, h => by
    rw [← Except.ok.inj h]
    simp
  | level, (key, x) :: fields, items, hjson, h => by
    rw [fieldsJson, Bool.and_eq_true] at hjson
    rw [dumpsFields] at h
    cases hitem : dumpsAt W indent level x with
    | error exc => rw [hitem] at h; cases h
    | ok item =>
      cases hrest : dumpsFields W indent level fields with
      | error exc => rw [hitem, hrest] at h; cases h
      | ok rest =>
        rw [hitem, hrest] at h
        rw [← Except.ok.inj h]
        have hfield : Plain (quoted key ++ Text.of ": " ++ item) :=
          plain_append (plain_append (plain_quoted key) (plain_of (by decide))) (plain_dumpsAt level x hjson.1 hitem)
        exact List.forall_mem_cons.2 ⟨hfield, plain_dumpsFields level fields hjson.2 hrest⟩
end

/-- The text of a JSON value has no carriage return, whatever its strings
have. -/
theorem carriageReturn_notMem_dumps {value : Value κ} (hjson : isJson value = true) {t : Text}
    (h : dumps W indent value = .ok t) : carriageReturn ∉ t :=
  plain_dumpsAt W indent 0 value hjson h

/-- The text of the file that a small payload is written to. -/
example : dumps W (some 2) (.dict [(Text.of "a", .int 1), (Text.of "b", .str (Text.of "x"))]) =
    .ok (Text.of "\x7b\n  \"a\": 1,\n  \"b\": \"x\"\n\x7d") := rfl

end Dumps

end Value

end Ochestrate
