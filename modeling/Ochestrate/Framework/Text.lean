import Mathlib.Data.List.Basic

/-!
# Texts and their bytes

A text is a list of code points, and a surrogate is one. `encodeUtf8` writes a
text without surrogates as bytes; `decodeUtf8` reads bytes that are UTF-8, and
`decodeIgnoring` leaves out those that are not. `translateNewlines` is what
reading in text mode does to the ends of lines. `decodeUtf8_encodeUtf8`,
`decodeIgnoring_encodeUtf8` and `translateNewlines_eq_self_iff` say when a text
comes back.
-/

namespace Ochestrate

inductive CodePoint
  | scalar (c : Char)
  | surrogate (n : Fin 2048)
  deriving DecidableEq

/-- A string of the language. -/
abbrev Text := List CodePoint

/-- The text of a literal. -/
def Text.of (s : String) : Text := s.toList.map .scalar

/-- The character that a code point is. -/
def CodePoint.char? : CodePoint → Option Char
  | scalar c => some c
  | surrogate _ => none

/-! ## UTF-8 -/

/-- `text.encode("utf-8")`, or `none` for a `UnicodeEncodeError`. -/
def encodeUtf8 (t : Text) : Option (List UInt8) := (t.mapM CodePoint.char?).map fun cs => cs.flatMap String.utf8EncodeChar

/-- The character that the bytes start with. -/
def firstChar (bytes : List UInt8) : Option Char := bytes.toByteArray.utf8DecodeChar? 0

/-- The characters of the bytes, with `none` for a byte that starts none; the
first argument counts the bytes that belong to the last character. -/
def utf8Units : Nat → List UInt8 → List (Option Char)
  | _, [] => []
  | n + 1, _ :: bytes => utf8Units n bytes
  | 0, b :: bytes =>
    match firstChar (b :: bytes) with
    | some c => some c :: utf8Units (c.utf8Size - 1) bytes
    | none => none :: utf8Units 0 bytes

/-- `bytes.decode("utf-8")`, or `none` for a `UnicodeDecodeError`. -/
def decodeUtf8 (bytes : List UInt8) : Option Text := ((utf8Units 0 bytes).mapM id).map (·.map .scalar)

/-- `bytes.decode("utf-8", errors="ignore")` -/
def decodeIgnoring (bytes : List UInt8) : Text := ((utf8Units 0 bytes).filterMap id).map .scalar

theorem firstChar_append (c : Char) (bytes : List UInt8) :
    firstChar (String.utf8EncodeChar c ++ bytes) = some c := by
  rw [firstChar, List.toByteArray_append]
  exact ByteArray.utf8DecodeChar?_utf8EncodeChar_append

/-- The rest of a character is skipped. -/
theorem utf8Units_skip (skipped bytes : List UInt8) : utf8Units skipped.length (skipped ++ bytes) = utf8Units 0 bytes := by
  induction skipped with
  | nil => rfl
  | cons b skipped ih => exact ih

theorem utf8Units_encode (cs : List Char) : utf8Units 0 (cs.flatMap String.utf8EncodeChar) = cs.map some := by
  induction cs with
  | nil => rfl
  | cons c cs ih =>
    have hfirst := firstChar_append c (cs.flatMap String.utf8EncodeChar)
    have hlength := String.length_utf8EncodeChar c
    rw [List.flatMap_cons, List.map_cons]
    cases hbytes : String.utf8EncodeChar c with
    | nil => exact absurd hbytes String.utf8EncodeChar_ne_nil
    | cons b rest =>
      rw [hbytes] at hfirst hlength
      have hrest : c.utf8Size - 1 = rest.length := by
        rw [List.length_cons] at hlength
        omega
      rw [List.cons_append] at hfirst ⊢
      simp only [utf8Units, hfirst]
      rw [hrest, utf8Units_skip, ih]

theorem map_scalar {t : Text} {cs : List Char} (h : t.mapM CodePoint.char? = some cs) : cs.map .scalar = t := by
  induction t generalizing cs with
  | nil =>
    cases h
    rfl
  | cons c t ih =>
    simp only [List.mapM_cons, Option.bind_eq_bind, Option.bind_eq_some_iff] at h
    obtain ⟨d, hd, ds, hds, hcs⟩ := h
    cases hcs
    rw [List.map_cons, ih hds]
    cases c with
    | scalar c => rw [Option.some.inj hd]
    | surrogate n => cases hd

variable {t : Text} {bytes : List UInt8}

/-- Bytes that were written from a text are read as the text. -/
theorem decodeIgnoring_encodeUtf8 (h : encodeUtf8 t = some bytes) : decodeIgnoring bytes = t := by
  simp only [encodeUtf8, Option.map_eq_some_iff] at h
  obtain ⟨cs, hcs, rfl⟩ := h
  rw [decodeIgnoring, utf8Units_encode, List.filterMap_map]
  show (cs.filterMap fun c => some c).map _ = t
  rw [List.filterMap_some, map_scalar hcs]

theorem decodeUtf8_encodeUtf8 (h : encodeUtf8 t = some bytes) : decodeUtf8 bytes = some t := by
  simp only [encodeUtf8, Option.map_eq_some_iff] at h
  obtain ⟨cs, hcs, rfl⟩ := h
  have hall : (cs.map some).mapM id = some cs := by
    clear hcs
    induction cs with
    | nil => rfl
    | cons c cs ih => simp [List.mapM_cons, ih]
  rw [decodeUtf8, utf8Units_encode, hall, Option.map_some, map_scalar hcs]

/-! ## Ends of lines -/

def carriageReturn : CodePoint := .scalar '\r'

def lineFeed : CodePoint := .scalar '\n'

/-- A carriage return, with a line feed after it, becomes a line feed. -/
def translateNewlines : Text → Text
  | [] => []
  | [c] => if c = carriageReturn then [lineFeed] else [c]
  | c :: d :: t =>
    if c = carriageReturn then
      if d = lineFeed then lineFeed :: translateNewlines t else lineFeed :: translateNewlines (d :: t)
    else c :: translateNewlines (d :: t)

theorem carriageReturn_ne_lineFeed : carriageReturn ≠ lineFeed := by decide

theorem carriageReturn_notMem_translateNewlines (t : Text) : carriageReturn ∉ translateNewlines t := by
  fun_induction translateNewlines t with
  | case1 => simp
  | case2 => simp [carriageReturn_ne_lineFeed]
  | case3 c h => simpa using Ne.symm h
  | case4 t ih => simp [carriageReturn_ne_lineFeed, ih]
  | case5 d t hd ih => simp [carriageReturn_ne_lineFeed, ih]
  | case6 c d t h ih => simp [Ne.symm h, ih]

/-- The lines of a text end as before exactly if none has a carriage return. -/
theorem translateNewlines_eq_self_iff : translateNewlines t = t ↔ carriageReturn ∉ t := by
  constructor
  · intro h
    rw [← h]
    exact carriageReturn_notMem_translateNewlines t
  · intro h
    fun_induction translateNewlines t with
    | case1 => rfl
    | case2 => simp at h
    | case3 => rfl
    | case4 => simp at h
    | case5 => simp at h
    | case6 c d t hc ih => rw [ih fun hmem => h (List.mem_cons_of_mem _ hmem)]

end Ochestrate
