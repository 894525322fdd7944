/-
Percent-encoded text: a percent sign with two hexadecimal digits stands
for a byte, and a percent sign without them for itself.
-/
import Tenancy.Text.Hex
import Tenancy.Text.Utf8

namespace Tenancy.Text

/-- The value of a byte that is an ASCII hexadecimal digit. -/
def hexByteValue? (b : UInt8) : Option Nat := hexValue? (Char.ofNat b.toNat)

/-- The bytes that percent-encoded bytes stand for. -/
def percentDecode : List UInt8 → List UInt8
  | [] => []
  | [b] => [b]
  | [b, c] => [b, c]
  | b :: h :: l :: rest =>
    if b = 0x25 then
      match hexByteValue? h, hexByteValue? l with
      | some high, some low => (high * 16 + low).toUInt8 :: percentDecode rest
      | _, _ => b :: percentDecode (h :: l :: rest)
    else b :: percentDecode (h :: l :: rest)

/-- The text that a percent-encoded text stands for, if its bytes spell one. -/
def readPercentEncoded? (s : String) : Option String :=
  (readUtf8? (percentDecode (utf8 s))).map String.ofList

end Tenancy.Text
