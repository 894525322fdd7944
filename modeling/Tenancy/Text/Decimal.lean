/-
Whole numbers in decimal, as configuration and query values spell them:
an optional sign, then ASCII digits and nothing else. There is no
digit grouping and no surrounding blank; leading zeros are fine. A
number outside the range asked for is no number of that kind at all.
-/
namespace Tenancy.Text

/-- The value of an ASCII digit. -/
def digitValue? (c : Char) : Option Nat :=
  if '0' ≤ c ∧ c ≤ '9' then some (c.toNat - 48) else none

/-- The digits read on behind a value already read. -/
def digitsFrom (value : Nat) : List Char → Option Nat
  | [] => some value
  | c :: rest => do digitsFrom (value * 10 + (← digitValue? c)) rest

/-- The value of a non-empty run of ASCII digits. -/
def digitsValue? : List Char → Option Nat
  | [] => none
  | cs => digitsFrom 0 cs

/-- A number of `0 … max`, with an optional plus sign. -/
def readNat? (max : Nat) (s : String) : Option Nat := do
  let digits := match s.toList with
    | '+' :: rest => rest
    | cs => cs
  let n ← digitsValue? digits
  if n ≤ max then some n else none

/-- A number of `-bound … bound - 1`, with an optional sign. -/
def readInt? (bound : Nat) (s : String) : Option Int :=
  match s.toList with
  | '-' :: rest => do
    let n ← digitsValue? rest
    if n ≤ bound then some (-(n : Int)) else none
  | '+' :: rest => do
    let n ← digitsValue? rest
    if n < bound then some (n : Int) else none
  | cs => do
    let n ← digitsValue? cs
    if n < bound then some (n : Int) else none

/-- The decimal digits of a number, padded with zeros to a width. -/
def padded (width n : Nat) : String :=
  let digits := Nat.toDigits 10 n
  String.ofList (List.replicate (width - digits.length) '0' ++ digits)

end Tenancy.Text
