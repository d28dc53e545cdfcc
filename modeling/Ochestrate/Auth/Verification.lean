import Mathlib.Data.List.TakeDrop
import Mathlib.Data.List.TakeWhile
import Mathlib.Data.Option.Basic
import Mathlib.Data.String.Basic
import Ochestrate.Auth.Passwords

/-!
# Verifying passwords

`IsStored` is the form of a stored hash, and what `parse` reads of it
(`parse_eq_some_iff`). A text of another form is no hash of any password. One
that has the form is given to the digest function with the rounds it names,
outside the handler, so `verify_password` answers every text exactly if the
function takes these rounds (`verifyPassword_spec`).
-/

namespace Ochestrate

/-! ## Splitting -/

section Split

variable {sep : Char}

theorem span_append_cons {part rest : List Char} (h : sep ∉ part) :
    (part ++ sep :: rest).span (· ≠ sep) = (part, sep :: rest) := by
  have hpart : ∀ c ∈ part, decide (c ≠ sep) = true := fun c hc => decide_eq_true fun heq => h (heq ▸ hc)
  rw [List.span_eq_takeWhile_dropWhile, List.takeWhile_append_of_pos hpart, List.dropWhile_append_of_pos hpart]
  simp

/-- The first part of a split text, and the parts of what follows. -/
theorem splitAtMost_eq_cons_iff (n : Nat) (text part : List Char) {parts : List (List Char)} (hparts : parts ≠ []) :
    splitAtMost sep (n + 1) text = part :: parts ↔
      sep ∉ part ∧ ∃ rest, text = part ++ sep :: rest ∧ splitAtMost sep n rest = parts := by
  constructor
  · intro h
    unfold splitAtMost at h
    split at h
    · exact absurd (List.cons.inj h).2 (Ne.symm hparts)
    · next part' c rest hspan =>
      rw [List.span_eq_takeWhile_dropWhile] at hspan
      obtain ⟨htake, hdrop⟩ := Prod.mk.inj hspan
      obtain ⟨rfl, hrest⟩ := List.cons.inj h
      have hc : c = sep := by
        have hhead := List.head?_dropWhile_not (fun c => decide (c ≠ sep)) text
        rw [hdrop] at hhead
        simpa using hhead
      have hpart : sep ∉ part' := by
        intro hmem
        rw [← htake] at hmem
        simpa using List.mem_takeWhile_imp hmem
      refine ⟨hpart, rest, ?_, hrest⟩
      rw [← hc, ← hdrop, ← htake, List.takeWhile_append_dropWhile]
  · rintro ⟨hpart, rest, rfl, hrest⟩
    rw [splitAtMost, span_append_cons hpart]
    exact congrArg _ hrest

end Split

namespace Pbkdf2

/-- `INT_MAX` -/
def intMax : Nat := 2147483647

/-- What the digest function takes: at least one round, and no number or size
beyond a C `int`. -/
structure Takes (password : String) (salt : Bytes) (rounds : Int) : Prop where
  one_le : 1 ≤ rounds
  rounds_le : rounds ≤ intMax
  password_le : password.utf8ByteSize ≤ intMax
  salt_le : salt.length ≤ intMax

/-- The documented behaviour of the library: when the digest function returns,
and that hexadecimal digits are read as they were written. -/
structure Documented (P : Pbkdf2) : Prop where
  hmac_returns : ∀ password salt rounds,
    (∃ digest, P.hmac password salt rounds = .ok digest) ↔ Takes password salt rounds
  fromhex_hex : ∀ data, P.fromhex (P.hex data) = some data
  hex_digits : ∀ data, '$' ∉ (P.hex data).toList
  int_rounds : P.int (toString rounds) = some rounds

variable (P : Pbkdf2)

/-- `pbkdf2_sha256$rounds$salt_hex$digest_hex` -/
def IsStored (encoded : String) (rounds : Int) (salt digest : Bytes) : Prop :=
  ∃ roundsText saltHex digestHex : String, '$' ∉ roundsText.toList ∧ '$' ∉ saltHex.toList ∧
    encoded = "pbkdf2_sha256$" ++ roundsText ++ "$" ++ saltHex ++ "$" ++ digestHex ∧
    P.int roundsText = some rounds ∧ P.fromhex saltHex = some salt ∧ P.fromhex digestHex = some digest

variable {P} {encoded : String} {rounds : Int} {salt digest : Bytes}

/-- Four parts, the last with what is left. -/
theorem splitAtMost_three_iff (method roundsText saltHex digestHex : List Char) :
    splitAtMost '$' 3 encoded.toList = [method, roundsText, saltHex, digestHex] ↔
      '$' ∉ method ∧ '$' ∉ roundsText ∧ '$' ∉ saltHex ∧
        encoded.toList = method ++ '$' :: (roundsText ++ '$' :: (saltHex ++ '$' :: digestHex)) := by
  constructor
  · intro h
    obtain ⟨hmethod, rest, htext, hrest⟩ := (splitAtMost_eq_cons_iff 2 _ _ (List.cons_ne_nil _ _)).1 h
    obtain ⟨hrounds, rest', rfl, hrest'⟩ := (splitAtMost_eq_cons_iff 1 _ _ (List.cons_ne_nil _ _)).1 hrest
    obtain ⟨hsalt, rest'', rfl, hrest''⟩ := (splitAtMost_eq_cons_iff 0 _ _ (List.cons_ne_nil _ _)).1 hrest'
    obtain rfl : rest'' = digestHex := (List.cons.inj hrest'').1
    exact ⟨hmethod, hrounds, hsalt, htext⟩
  · intro ⟨hmethod, hrounds, hsalt, htext⟩
    have hlast := (splitAtMost_eq_cons_iff 0 _ _ (List.cons_ne_nil _ _)).2 ⟨hsalt, digestHex, rfl, rfl⟩
    have hmiddle := (splitAtMost_eq_cons_iff 1 _ _ (List.cons_ne_nil _ _)).2 ⟨hrounds, _, rfl, hlast⟩
    exact (splitAtMost_eq_cons_iff 2 _ _ (List.cons_ne_nil _ _)).2 ⟨hmethod, _, htext, hmiddle⟩

theorem parse_eq_some_iff : P.parse encoded = some (rounds, salt, digest) ↔ P.IsStored encoded rounds salt digest := by
  unfold parse IsStored
  constructor
  · intro h
    split at h
    · next method roundsText saltHex digestHex hsplit =>
      obtain ⟨-, hrounds, hsalt, htext⟩ := (splitAtMost_three_iff ..).1 hsplit
      simp only [Option.bind_eq_bind, Option.bind_eq_some_iff, Option.guard_eq_some'] at h
      obtain ⟨-, hmethod, rounds', hint, salt', hsaltHex, digest', hdigestHex, hresult⟩ := h
      cases hresult
      refine ⟨.ofList roundsText, .ofList saltHex, .ofList digestHex, by simpa using hrounds, by simpa using hsalt, ?_,
        hint, hsaltHex, hdigestHex⟩
      have hchars : method = "pbkdf2_sha256".toList := by rw [← hmethod, String.toList_ofList]
      rw [← String.toList_inj, htext, hchars]
      simp
    · cases h
  · rintro ⟨roundsText, saltHex, digestHex, hrounds, hsalt, rfl, hint, hsaltHex, hdigestHex⟩
    have hsplit : splitAtMost '$' 3
        ("pbkdf2_sha256$" ++ roundsText ++ "$" ++ saltHex ++ "$" ++ digestHex).toList =
        ["pbkdf2_sha256".toList, roundsText.toList, saltHex.toList, digestHex.toList] := by
      refine (splitAtMost_three_iff ..).2 ⟨by decide, hrounds, hsalt, ?_⟩
      simp
    rw [hsplit]
    simp [hint, hsaltHex, hdigestHex]

/-- A text of another form is no hash. -/
theorem verifyPassword_of_not_isStored {password : String}
    (h : ∀ rounds salt digest, ¬ P.IsStored encoded rounds salt digest) : P.verifyPassword password encoded = .ok false := by
  have hparse : P.parse encoded = none := by
    refine Option.eq_none_iff_forall_ne_some.2 fun entry hentry => ?_
    exact h entry.1 entry.2.1 entry.2.2 (parse_eq_some_iff.1 hentry)
  rw [verifyPassword, hparse]

theorem verifyPassword_of_isStored {password : String} (h : P.IsStored encoded rounds salt digest) :
    P.verifyPassword password encoded = (P.hmac password salt rounds).map fun actual => decide (actual = digest) := by
  rw [verifyPassword, parse_eq_some_iff.2 h]
  show (P.hmac password salt rounds >>= fun actual => pure (decide (actual = digest))) = _
  cases P.hmac password salt rounds <;> rfl

/-- A text that verifies is a hash of the password. -/
theorem of_verifyPassword {password : String} (h : P.verifyPassword password encoded = .ok true) :
    ∃ rounds salt digest, P.IsStored encoded rounds salt digest ∧ P.hmac password salt rounds = .ok digest := by
  by_cases hstored : ∃ rounds salt digest, P.IsStored encoded rounds salt digest
  · obtain ⟨rounds, salt, digest, hstored⟩ := hstored
    refine ⟨rounds, salt, digest, hstored, ?_⟩
    rw [verifyPassword_of_isStored hstored] at h
    cases hhmac : P.hmac password salt rounds with
    | error exc =>
      rw [hhmac] at h
      cases h
    | ok actual =>
      rw [hhmac] at h
      rw [of_decide_eq_true (Except.ok.inj h)]
  · rw [verifyPassword_of_not_isStored fun rounds salt digest h => hstored ⟨rounds, salt, digest, h⟩] at h
    cases h

/-- The encoder writes the form that is parsed. -/
theorem isStored_hash (h : P.Documented) (salt digest : Bytes) :
    P.IsStored ("pbkdf2_sha256$" ++ toString Pbkdf2.rounds ++ "$" ++ P.hex salt ++ "$" ++ P.hex digest) Pbkdf2.rounds salt
      digest :=
  ⟨toString Pbkdf2.rounds, P.hex salt, P.hex digest, by decide, h.hex_digits salt, rfl, h.int_rounds, h.fromhex_hex salt,
    h.fromhex_hex digest⟩

theorem hashPassword_ok {password hash : String} (hhash : P.hashPassword salt password = .ok hash) :
    ∃ digest, P.hmac password salt Pbkdf2.rounds = .ok digest ∧
      hash = "pbkdf2_sha256$" ++ toString Pbkdf2.rounds ++ "$" ++ P.hex salt ++ "$" ++ P.hex digest := by
  rw [hashPassword] at hhash
  cases hhmac : P.hmac password salt Pbkdf2.rounds with
  | error exc =>
    rw [hhmac] at hhash
    cases hhash
  | ok digest =>
    rw [hhmac] at hhash
    exact ⟨digest, rfl, (Except.ok.inj hhash).symm⟩

/-- What the encoder returns is verified. -/
theorem verifyPassword_hashPassword (h : P.Documented) {password hash : String}
    (hhash : P.hashPassword salt password = .ok hash) : P.verifyPassword password hash = .ok true := by
  obtain ⟨digest, hhmac, rfl⟩ := hashPassword_ok hhash
  rw [verifyPassword_of_isStored (isStored_hash h salt digest), hhmac]
  exact congrArg Except.ok (decide_eq_true rfl)

/-- A password that was hashed once is compared with every hash that was
written. -/
theorem verifyPassword_returns (h : P.Documented) {password password' hash hash' : String} {salt' : Bytes}
    (hhash : P.hashPassword salt password = .ok hash) (hhash' : P.hashPassword salt' password' = .ok hash') :
    ∃ verified, P.verifyPassword password hash' = .ok verified := by
  obtain ⟨digest, hhmac, -⟩ := hashPassword_ok hhash
  obtain ⟨digest', hhmac', rfl⟩ := hashPassword_ok hhash'
  have htakes := (h.hmac_returns ..).1 ⟨digest, hhmac⟩
  have htakes' := (h.hmac_returns ..).1 ⟨digest', hhmac'⟩
  obtain ⟨actual, hactual⟩ := (h.hmac_returns password salt' Pbkdf2.rounds).2
    ⟨htakes.one_le, htakes.rounds_le, htakes.password_le, htakes'.salt_le⟩
  rw [verifyPassword_of_isStored (isStored_hash h salt' digest'), hactual]
  exact ⟨_, rfl⟩

/-- Every text is answered, and only hashes of the password are verified, exactly
if the digest function takes the rounds of the text; and what the encoder
returns is verified exactly if it takes the password and the salt. -/
theorem verifyPassword_spec (P : Pbkdf2) (h : P.Documented) (password encoded : String) (salt : Bytes) :
    (((∃ verified, P.verifyPassword password encoded = .ok verified) ∧
        (P.verifyPassword password encoded = .ok true →
          ∃ rounds salt digest, P.IsStored encoded rounds salt digest ∧ P.hmac password salt rounds = .ok digest)) ↔
      ∀ rounds salt digest, P.IsStored encoded rounds salt digest → Takes password salt rounds) ∧
    ((∃ hash, P.hashPassword salt password = .ok hash ∧ P.verifyPassword password hash = .ok true) ↔
      Takes password salt Pbkdf2.rounds) := by
  refine ⟨⟨fun hspec rounds salt digest hstored => ?_, fun htakes => ⟨?_, of_verifyPassword⟩⟩,
    fun hhash => ?_, fun htakes => ?_⟩
  · obtain ⟨⟨verified, hverified⟩, -⟩ := hspec
    rw [verifyPassword_of_isStored hstored] at hverified
    rw [← h.hmac_returns]
    cases hhmac : P.hmac password salt rounds with
    | error exc =>
      rw [hhmac] at hverified
      cases hverified
    | ok actual => exact ⟨actual, rfl⟩
  · by_cases hstored : ∃ rounds salt digest, P.IsStored encoded rounds salt digest
    · obtain ⟨rounds, salt, digest, hstored⟩ := hstored
      obtain ⟨actual, hhmac⟩ := (h.hmac_returns password salt rounds).2 (htakes rounds salt digest hstored)
      exact ⟨_, by rw [verifyPassword_of_isStored hstored, hhmac]; rfl⟩
    · exact ⟨false, verifyPassword_of_not_isStored fun rounds salt digest h => hstored ⟨rounds, salt, digest, h⟩⟩
  · obtain ⟨hash, hhash, -⟩ := hhash
    obtain ⟨digest, hhmac, -⟩ := hashPassword_ok hhash
    exact (h.hmac_returns ..).1 ⟨digest, hhmac⟩
  · obtain ⟨digest, hhmac⟩ := (h.hmac_returns password salt Pbkdf2.rounds).2 htakes
    have hhash : ∃ hash, P.hashPassword salt password = .ok hash := ⟨_, by rw [hashPassword, hhmac]; rfl⟩
    obtain ⟨hash, hhash⟩ := hhash
    exact ⟨hash, hhash, verifyPassword_hashPassword h hhash⟩

/-! ## A library -/

/-- The digit of a number below sixteen. -/
def hexDigit (n : Nat) : Char := "0123456789abcdef".toList.getD n '0'

def hexValue (c : Char) : Option Nat :=
  if c.isDigit then some (c.toNat - '0'.toNat)
  else if 'a' ≤ c ∧ c ≤ 'f' then some (c.toNat - 'a'.toNat + 10)
  else if 'A' ≤ c ∧ c ≤ 'F' then some (c.toNat - 'A'.toNat + 10)
  else none

/-- `data.hex()` -/
def writeHex (data : Bytes) : String := .ofList (data.flatMap fun b => [hexDigit (b.toNat / 16), hexDigit (b.toNat % 16)])

/-- The bytes of pairs of digits. -/
def readHex : List Char → Option Bytes
  | [] => some []
  | [_] => none
  | c :: c' :: cs => do
    let high ← hexValue c
    let low ← hexValue c'
    return UInt8.ofNat (16 * high + low) :: (← readHex cs)

theorem hexValue_hexDigit : ∀ n : Fin 16, hexValue (hexDigit n) = some n.val := by decide

theorem hexDigit_ne : ∀ n : Fin 16, hexDigit n ≠ '$' := by decide

theorem readHex_writeHex (data : Bytes) : readHex (writeHex data).toList = some data := by
  rw [writeHex, String.toList_ofList]
  induction data with
  | nil => rfl
  | cons b data ih =>
    have hhigh := hexValue_hexDigit ⟨b.toNat / 16, by have := b.toNat_lt; omega⟩
    have hlow := hexValue_hexDigit ⟨b.toNat % 16, by omega⟩
    have hbyte : UInt8.ofNat (16 * (b.toNat / 16) + b.toNat % 16) = b := by rw [Nat.div_add_mod, UInt8.ofNat_toNat]
    simp only [List.flatMap_cons, List.cons_append, List.nil_append, readHex, ih]
    rw [hhigh, hlow]
    exact congrArg (fun b => some (b :: data)) hbyte

theorem dollar_notMem_writeHex (data : Bytes) : '$' ∉ (writeHex data).toList := by
  rw [writeHex, String.toList_ofList]
  intro hmem
  obtain ⟨b, -, hb⟩ := List.mem_flatMap.1 hmem
  rw [List.mem_cons, List.mem_singleton] at hb
  rcases hb with hb | hb
  · exact hexDigit_ne ⟨b.toNat / 16, by have := b.toNat_lt; omega⟩ hb.symm
  · exact hexDigit_ne ⟨b.toNat % 16, by omega⟩ hb.symm

instance (password : String) (salt : Bytes) (rounds : Int) : Decidable (Takes password salt rounds) :=
  decidable_of_iff (1 ≤ rounds ∧ rounds ≤ intMax ∧ password.utf8ByteSize ≤ intMax ∧ salt.length ≤ intMax)
    ⟨fun ⟨one, rounds, password, salt⟩ => ⟨one, rounds, password, salt⟩, fun h => ⟨h.1, h.2, h.3, h.4⟩⟩

/-- The digest of the password `secret`, for a salt of sixteen zeros. -/
def secretDigest : Bytes := (readHex "25b8717313fd274f17c9c0f9fb2c4966e915806f915f8b1e510bad91786c8fad".toList).getD []

/-- The digest function on that password and salt; other digests are left out. -/
def secretHmac (password : String) (salt : Bytes) (rounds : Int) : Except Exc Bytes :=
  if Takes password salt rounds then
    .ok (if password = "secret" ∧ salt = List.replicate 16 0 ∧ rounds = Pbkdf2.rounds then secretDigest else [])
  else .error ⟨.valueError, "iteration value must be greater than 0."⟩

/-- `int(text)` of decimal digits. -/
def readDigits (text : String) : Option Int :=
  if text ≠ "" ∧ text.toList.all Char.isDigit then
    some (text.toList.foldl (fun n c => 10 * n + (c.toNat - '0'.toNat)) 0 : Nat)
  else none

def secretLibrary : Pbkdf2 where
  hmac := secretHmac
  hex := writeHex
  fromhex text := readHex text.toList
  int := readDigits

theorem secretHmac_returns (password : String) (salt : Bytes) (rounds : Int) :
    (∃ digest, secretHmac password salt rounds = .ok digest) ↔ Takes password salt rounds := by
  by_cases h : Takes password salt rounds
  · rw [secretHmac, if_pos h]
    exact ⟨fun _ => h, fun _ => ⟨_, rfl⟩⟩
  · rw [secretHmac, if_neg h]
    exact ⟨fun ⟨_, hdigest⟩ => (by cases hdigest), fun htakes => absurd htakes h⟩

theorem secretLibrary_documented : secretLibrary.Documented where
  hmac_returns := secretHmac_returns
  fromhex_hex := readHex_writeHex
  hex_digits := dollar_notMem_writeHex
  int_rounds := by decide +kernel

/-- The password `secret` is verified. -/
theorem verifyPassword_spec_secret :
    ∃ hash, secretLibrary.hashPassword (List.replicate 16 0) "secret" = .ok hash ∧
      secretLibrary.verifyPassword "secret" hash = .ok true :=
  (verifyPassword_spec secretLibrary secretLibrary_documented "secret" "" (List.replicate 16 0)).2.2 (by decide)

/-- A stored text with no rounds raises. -/
theorem exists_verifyPassword_raises :
    ¬ ∀ (P : Pbkdf2), P.Documented → ∀ password encoded : String,
      ∃ verified, P.verifyPassword password encoded = .ok verified := by
  intro h
  obtain ⟨verified, hverified⟩ := h secretLibrary secretLibrary_documented "secret" "pbkdf2_sha256$0$00$00"
  have hstored : secretLibrary.IsStored "pbkdf2_sha256$0$00$00" 0 [0] [0] :=
    ⟨"0", "00", "00", by decide, by decide, by decide, by decide, by decide, by decide⟩
  obtain ⟨digest, hdigest⟩ : ∃ digest, secretHmac "secret" [0] 0 = .ok digest := by
    rw [verifyPassword_of_isStored hstored] at hverified
    cases hhmac : secretHmac "secret" [0] 0 with
    | error exc =>
      change (secretHmac "secret" [0] 0).map _ = _ at hverified
      rw [hhmac] at hverified
      cases hverified
    | ok digest => exact ⟨digest, rfl⟩
  exact absurd ((secretHmac_returns ..).1 ⟨digest, hdigest⟩).one_le (by decide)

end Pbkdf2

end Ochestrate
