import Ochestrate.Framework.Fault

/-!
# Password hashes

`hash_password` and `verify_password` of `app/auth/service.py`. The digest and
the reading and writing of numbers and bytes are the language's own (`Pbkdf2`).
-/

namespace Ochestrate

abbrev Bytes := List UInt8

/-- What the two methods use of the language's library. -/
structure Pbkdf2 where
  /-- `hashlib.pbkdf2_hmac("sha256", password.encode("utf-8"), salt, rounds)` -/
  hmac : String → Bytes → Int → Except Exc Bytes
  /-- `data.hex()` -/
  hex : Bytes → String
  /-- `bytes.fromhex(text)`; `none` where it raises. -/
  fromhex : String → Option Bytes
  /-- `int(text)`; `none` where it raises. -/
  int : String → Option Int

/-- `text.split(sep, n)` -/
def splitAtMost (sep : Char) : Nat → List Char → List (List Char)
  | 0, text => [text]
  | n + 1, text =>
    match text.span (· ≠ sep) with
    | (part, []) => [part]
    | (part, _ :: rest) => part :: splitAtMost sep n rest

namespace Pbkdf2

variable (P : Pbkdf2)

def rounds : Int := 120000

/-- `hash_password`, with the random salt as an argument. -/
def hashPassword (salt : Bytes) (password : String) : Except Exc String := do
  let digest ← P.hmac password salt rounds
  return "pbkdf2_sha256$" ++ toString rounds ++ "$" ++ P.hex salt ++ "$" ++ P.hex digest

/-- The rounds, the salt and the digest of a stored hash. -/
def parse (encoded : String) : Option (Int × Bytes × Bytes) :=
  match splitAtMost '$' 3 encoded.toList with
  | [method, rounds, salt, digest] => do
    guard (String.ofList method = "pbkdf2_sha256")
    let rounds ← P.int (String.ofList rounds)
    let salt ← P.fromhex (String.ofList salt)
    let digest ← P.fromhex (String.ofList digest)
    return (rounds, salt, digest)
  | _ => none

/-- `verify_password`. -/
def verifyPassword (password encoded : String) : Except Exc Bool :=
  match P.parse encoded with
  | none => .ok false
  | some (rounds, salt, expected) => do
    let actual ← P.hmac password salt rounds
    return actual = expected

end Pbkdf2

end Ochestrate
