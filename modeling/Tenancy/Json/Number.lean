/-
Numbers as JSON spells them. A number without fraction and exponent is a
whole number if it fits 64 bits, signed or unsigned; every other number
is a floating-point number, and minus zero is one too.

A floating-point number is found from at most 64 bits of its digits and
a power of ten, with one rounding for the digits and one more for each
multiplication or division by a power of ten. Digits that no longer fit
are dropped: before the point each raises the power, behind it they no
longer count. A number above the greatest finite one is a fault; one below the
smallest is zero.
-/
import Tenancy.Json.Basic
import Tenancy.Json.Scan
import Tenancy.Text.Decimal

namespace Tenancy.Json

open Text

/-- The greatest number of 64 unsigned bits. -/
def maxWord : Nat := 0xffffffffffffffff

-- =========================================================== the power

/-- The number for collected digits and a power of ten. Powers beyond
the table of exact ones are taken 308 at a time. -/
def scaleDown : (steps : Nat) → Binary64 → Nat → Binary64
  | 0, _, _ => ⟨0⟩
  | steps + 1, f, exponent =>
    if exponent ≤ 308 then
      Binary64.div f (Binary64.nearest (Nat.pow 10 exponent) 1)
    else if f.units = 0 then f
    else scaleDown steps (Binary64.div f (Binary64.nearest (Nat.pow 10 308) 1))
      (exponent - 308)

/-- The number for collected digits and a power of ten, none if it is too
great. -/
def scaled? (significand : Nat) (exponent : Int) : Option Binary64 :=
  let f := Binary64.nearest significand 1
  if 0 ≤ exponent then
    if exponent ≤ 308 then
      let product :=
        Binary64.mul f (Binary64.nearest (Nat.pow 10 exponent.toNat) 1)
      if product.isFinite then some product else none
    else if significand = 0 then some f
    else none
  else some (scaleDown 8 f (-exponent).toNat)

/-- An exponent kept within 32 signed bits. -/
def clamp32 (e : Int) : Int := max (-0x80000000) (min e 0x7fffffff)

/-- The sign put on a number. -/
def signed (negative : Bool) (x : Binary64) : Json :=
  .float (if negative then x.negate else x)

-- ========================================================== the digits

/-- The octets behind a run of digits. -/
def skipDigits (cs : List Char) : List Char :=
  cs.dropWhile fun c => (digitValue? c).isSome

/-- The digits of an exponent: its value, none once it exceeds 31 bits,
which stops the scan behind the digit that tells so. -/
def scanExponentDigits (value : Nat) : Scan Nat
  | [] => (some value, [])
  | c :: rest =>
    match digitValue? c with
    | none => (some value, c :: rest)
    | some d =>
      if value * 10 + d > 0x7fffffff then (none, rest)
      else scanExponentDigits (value * 10 + d) rest

/-- What follows the mark of an exponent. An exponent of more than 31 bits
makes a number that is not zero too great or too small. -/
def scanExponent (negative : Bool) (significand : Nat) (start : Int) :
    Scan Json := fun cs =>
  let (down, cs) := match cs with
    | '+' :: rest => (false, rest)
    | '-' :: rest => (true, rest)
    | _ => (false, cs)
  match cs with
  | [] => (none, [])
  | c :: rest =>
    match digitValue? c with
    | none => (none, rest)
    | some first =>
      match scanExponentDigits first rest with
      | (some e, rest) =>
        let power := clamp32 (if down then start - e else start + e)
        ((scaled? significand power).map (signed negative), rest)
      | (none, rest) =>
        if significand ≠ 0 ∧ !down then (none, rest)
        else (some (signed negative ⟨0⟩), skipDigits rest)

/-- The end of a number that has its digits: an exponent or nothing. -/
def scanScale (negative : Bool) (significand : Nat) (exponent : Int) :
    Scan Json := fun cs =>
  match cs with
  | 'e' :: rest
  | 'E' :: rest => scanExponent negative significand exponent rest
  | _ => ((scaled? significand exponent).map (signed negative), cs)

/-- The digits behind the point, as many as fit: what they make of the
digits before, and how many they are. -/
def fractionDigits (significand count : Nat) :
    List Char → Nat × Nat × List Char
  | [] => (significand, count, [])
  | c :: rest =>
    match digitValue? c with
    | none => (significand, count, c :: rest)
    | some d =>
      if significand * 10 + d > maxWord then
        (significand, count, skipDigits rest)
      else fractionDigits (significand * 10 + d) (count + 1) rest

/-- What follows the point; at least one digit does. -/
def scanFraction (negative : Bool) (significand : Nat) (exponent : Int) :
    Scan Json := fun cs =>
  if (cs.head?.bind digitValue?).isNone then (none, cs)
  else
    let (significand, count, rest) := fractionDigits significand 0 cs
    scanScale negative significand (exponent - count) rest

/-- What follows the digits before the point, the last of which no longer
fit and count for the exponent only. -/
def scanLong (negative : Bool) (significand : Nat) : Scan Json := fun cs =>
  let dropped := cs.takeWhile fun c => (digitValue? c).isSome
  match skipDigits cs with
  | '.' :: rest => scanFraction negative significand dropped.length rest
  | rest => scanScale negative significand dropped.length rest

/-- A whole number with its sign; minus zero and what does not fit are
floating-point numbers. -/
def wholeNumber (negative : Bool) (n : Nat) : Json :=
  if !negative then .int n
  else if n = 0 ∨ n > 0x8000000000000000 then
    signed true (Binary64.nearest n 1)
  else .int (-(n : Int))

/-- What follows the digits before the point, all of which fit. -/
def scanTail (negative : Bool) (n : Nat) : Scan Json := fun cs =>
  match cs with
  | '.' :: rest => scanFraction negative n 0 rest
  | 'e' :: rest | 'E' :: rest => scanExponent negative n 0 rest
  | _ => (some (wholeNumber negative n), cs)

/-- The digits before the point, behind the first. -/
def scanWhole (negative : Bool) (n : Nat) : Scan Json
  | [] => scanTail negative n []
  | c :: rest =>
    match digitValue? c with
    | none => scanTail negative n (c :: rest)
    | some d =>
      if n * 10 + d > maxWord then scanLong negative n (c :: rest)
      else scanWhole negative (n * 10 + d) rest

/-- A number without its sign. No digit follows a leading zero. -/
def scanDigits (negative : Bool) : Scan Json
  | [] => (none, [])
  | c :: rest =>
    match digitValue? c with
    | none => (none, rest)
    | some 0 =>
      if (rest.head?.bind digitValue?).isSome then (none, rest)
      else scanTail negative 0 rest
    | some first => scanWhole negative first rest

def scanNumber : Scan Json
  | [] => (none, [])
  | c :: rest =>
    if c = '-' then scanDigits true rest
    else if (digitValue? c).isSome then scanDigits false (c :: rest)
    else (none, c :: rest)

end Tenancy.Json
