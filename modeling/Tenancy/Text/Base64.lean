/-
Base 64 without padding, in its two alphabets: the one for URLs, which
tokens use, and the standard one, which password hashes use. Reading is
strict: every character counts, and bits left over at the end are zero.
-/
namespace Tenancy.Text

/-- The two characters of an alphabet behind letters and digits. -/
structure Base64 where
  c62 : Char
  c63 : Char

namespace Base64

def url : Base64 := ⟨'-', '_'⟩

def standard : Base64 := ⟨'+', '/'⟩

/-- The character of a value below 64. -/
def char (alphabet : Base64) (n : Nat) : Char :=
  if n < 26 then Char.ofNat (65 + n)
  else if n < 52 then Char.ofNat (71 + n)
  else if n < 62 then Char.ofNat (n - 4)
  else if n = 62 then alphabet.c62
  else alphabet.c63

/-- The value of a character. -/
def value? (alphabet : Base64) (c : Char) : Option Nat :=
  if 'A' ≤ c ∧ c ≤ 'Z' then some (c.toNat - 65)
  else if 'a' ≤ c ∧ c ≤ 'z' then some (c.toNat - 71)
  else if '0' ≤ c ∧ c ≤ '9' then some (c.toNat + 4)
  else if c = alphabet.c62 then some 62
  else if c = alphabet.c63 then some 63
  else none

/-- Three bytes as four characters, and a shorter end as two or three. -/
def encode (alphabet : Base64) : List UInt8 → List Char
  | a :: b :: c :: rest =>
    let n := a.toNat * 65536 + b.toNat * 256 + c.toNat
    alphabet.char (n / 262144) :: alphabet.char (n / 4096 % 64)
      :: alphabet.char (n / 64 % 64)
      :: alphabet.char (n % 64) :: encode alphabet rest
  | [a, b] =>
    let n := (a.toNat * 256 + b.toNat) * 4
    [alphabet.char (n / 4096), alphabet.char (n / 64 % 64),
      alphabet.char (n % 64)]
  | [a] =>
    let n := a.toNat * 16
    [alphabet.char (n / 64), alphabet.char (n % 64)]
  | [] => []

/-- The bytes that characters stand for. -/
def decode? (alphabet : Base64) : List Char → Option (List UInt8)
  | a :: b :: c :: d :: rest => do
    let n :=
      (← alphabet.value? a) * 262144 + (← alphabet.value? b) * 4096
        + (← alphabet.value? c) * 64
      + (← alphabet.value? d)
    let bytes ← decode? alphabet rest
    return (n / 65536).toUInt8 :: (n / 256 % 256).toUInt8 :: (n % 256).toUInt8
      :: bytes
  | [a, b, c] => do
    let n :=
      (← alphabet.value? a) * 4096 + (← alphabet.value? b) * 64
        + (← alphabet.value? c)
    if n % 4 = 0 then some [(n / 1024).toUInt8, (n / 4 % 256).toUInt8]
    else none
  | [a, b] => do
    let n := (← alphabet.value? a) * 64 + (← alphabet.value? b)
    if n % 16 = 0 then some [(n / 16).toUInt8] else none
  | [_] => none
  | [] => some []

end Base64

end Tenancy.Text
