/-
The written form of a password's hash, and checking a password against
it. The form is made of parts behind dollar signs: the algorithm, its
version, its parameters, the salt and the digest; all but the first may
be missing from the end, and the version and the parameters also on
their own.

A text that is not of that form is no hash at all. One that is, but names
another algorithm or parameters that the algorithm does not take, is a
hash of no password.
-/
import Tenancy.Crypto.Argon2
import Tenancy.Text.Base64
import Tenancy.Text.Decimal
import Tenancy.Text.Split
import Tenancy.Text.Utf8

namespace Tenancy

open Text Crypto

/-- The parts of a written hash. -/
structure PasswordHash where
  algorithm : String
  version : Option Nat
  params : List (String × String)
  salt : Option String
  digest : Option (List UInt8)
deriving DecidableEq

namespace PasswordHash

-- ============================================================ reading

def isLetterOrDigit (c : Char) : Bool :=
  ('a' ≤ c && c ≤ 'z') || ('A' ≤ c && c ≤ 'Z') || ('0' ≤ c && c ≤ '9')

def isName (s : String) : Bool :=
  1 ≤ s.length && s.length ≤ 32
    && s.toList.all fun c =>
      c = '-' || ('a' ≤ c && c ≤ 'z') || ('0' ≤ c && c ≤ '9')

def isValue (s : String) : Bool :=
  s.length ≤ 64 && s.toList.all fun c =>
    isLetterOrDigit c || ['/', '+', '.', '-'].contains c

/-- A number of 32 bits, without sign and leading zeros. -/
def decimal? (s : String) : Option Nat :=
  match s.toList with
  | ['0'] => some 0
  | '0' :: _ | '+' :: _ => none
  | _ => readNat? 0xffffffff s

def param? (s : String) : Option (String × String) :=
  match splitOn '=' s with
  | [name, value] =>
    if isName name && isValue value then some (name, value) else none
  | _ => none

def params? (s : String) : Option (List (String × String)) :=
  if s.utf8ByteSize ≤ 127 then (splitOn ',' s).mapM param? else none

/-- A salt of 4 to 64 characters. -/
def salt? (s : String) : Option String :=
  if 4 ≤ s.length && isValue s then some s else none

/-- A digest of 10 to 64 bytes. -/
def digest? (s : String) : Option (List UInt8) := do
  let bytes ← Base64.standard.decode? s.toList
  if 10 ≤ bytes.length ∧ bytes.length ≤ 64 then some bytes else none

/-- The first part of a list if it passes a test, read, and the other parts. -/
def optionalPart {α : Type} (test : String → Bool) (read : String → Option α) :
    List String → Option (Option α × List String)
  | [] => some (none, [])
  | part :: rest =>
    if test part then do return (some (← read part), rest)
    else some (none, part :: rest)

/-- A version behind its mark; parts with a comma are parameters. -/
def version? (s : String) : Option Nat :=
  decimal? (String.ofList (s.toList.drop 2))

def isVersion (s : String) : Bool :=
  (after? ['v', '='] s.toList).isSome && !s.toList.contains ','

def ofString? (s : String) : Option PasswordHash :=
  match splitOn '$' s with
  | "" :: algorithm :: rest => do
    if !isName algorithm then none
    let (version, rest) ← optionalPart isVersion version? rest
    let (params, rest) ←
      optionalPart (fun part => part.toList.contains '=') params? rest
    let (salt, rest) ← optionalPart (fun _ => true) salt? rest
    let (digest, rest) ← optionalPart (fun _ => true) digest? rest
    if !rest.isEmpty then none
    return ⟨algorithm, version, params.getD [], salt, digest⟩
  | _ => none

-- =========================================================== checking

def variant? : String → Option Argon2.Variant
  | "argon2d" => some .d
  | "argon2i" => some .i
  | "argon2id" => some .id
  | _ => none

/-- Bytes in base 64, at most so many. -/
def bytes? (max : Nat) (s : String) : Option (List UInt8) := do
  let bytes ← Base64.standard.decode? s.toList
  if bytes.length ≤ max then some bytes else none

/-- A parameter put in its place. -/
def setParam? (p : Argon2.Params) (param : String × String) :
    Option Argon2.Params :=
  match param.1 with
  | "m" => do return { p with memory := ← decimal? param.2 }
  | "t" => do return { p with passes := ← decimal? param.2 }
  | "p" => do return { p with lanes := ← decimal? param.2 }
  | "keyid" => do
    let _ ← bytes? 8 param.2
    return p
  | "data" => do return { p with data := ← bytes? 32 param.2 }
  | _ => none

/-- The parameters of a hash with a digest of so many bytes, where the
algorithm takes them. -/
def argon2? (hash : PasswordHash) (length : Nat) : Option Argon2.Params := do
  let variant ← variant? hash.algorithm
  let version := hash.version.getD 19
  if version ≠ 16 ∧ version ≠ 19 then none
  let p ←
    hash.params.foldlM setParam? ⟨variant, version, 19456, 2, 1, [], length⟩
  if 8 ≤ p.memory ∧ 1 ≤ p.passes ∧ 1 ≤ p.lanes ∧ 8 * p.lanes ≤ p.memory
    ∧ p.lanes < 0x1000000 then some p
  else none

/-- Is the hash one of this password? -/
def verify (hash : PasswordHash) (password : String) : Bool :=
  match hash.salt, hash.digest with
  | some salt, some digest =>
    match hash.argon2? digest.length, Base64.standard.decode? salt.toList with
    | some p, some salt =>
      8 ≤ salt.length && Argon2.digest p (utf8 password) salt == digest
    | _, _ => false
  | _, _ => false

end PasswordHash

end Tenancy
