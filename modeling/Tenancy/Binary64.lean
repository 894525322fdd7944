/-
Binary floating-point numbers of 64 bits, as the exact rationals they
stand for. A finite number is a sign and a whole number of units, a unit
being a power of two; everything here is computed on those whole
numbers, so that rounding is a comparison of naturals and nothing hangs
on a machine's arithmetic.

Two functions carry the module. nearest is the number closest to a
quotient, a tie going to the even neighbour; shortest is the fewest
decimal digits that still lead back to the number, the closest such
digits where several do.
-/
namespace Tenancy

/-- A 64-bit floating-point number, by its bits. -/
structure Binary64 where
  bits : UInt64
deriving DecidableEq

namespace Binary64

instance : Inhabited Binary64 := ⟨⟨0⟩⟩

-- ============================================================= parts

def isNegative (x : Binary64) : Bool := x.bits >>> 63 != 0

/-- The bits without the sign, as a number: finite values grow with it. -/
def magnitudeBits (x : Binary64) : Nat := (x.bits &&& 0x7fffffffffffffff).toNat

/-- Neither an infinity nor a not-a-number. -/
def isFinite (x : Binary64) : Bool := x.magnitudeBits < 0x7ff0000000000000

/-- How many units a finite number is, apart from its sign. -/
def units (x : Binary64) : Nat :=
  let fraction := x.magnitudeBits % 0x10000000000000
  if x.magnitudeBits / 0x10000000000000 = 0 then fraction
  else fraction + 0x10000000000000

/-- The unit of a finite number is two to this power. -/
def unitExponent (x : Binary64) : Int :=
  let field : Nat := x.magnitudeBits / 0x10000000000000
  if field = 0 then -1074 else (field : Int) - 1075

/-- A power of two as a quotient. -/
def powerOfTwo (e : Int) : Nat × Nat :=
  if 0 ≤ e then (Nat.pow 2 e.toNat, 1) else (1, Nat.pow 2 (-e).toNat)

/-- The quotient that a finite number is, apart from its sign. -/
def quotient (x : Binary64) : Nat × Nat :=
  let (num, den) := powerOfTwo x.unitExponent
  (x.units * num, den)

def negate (x : Binary64) : Binary64 := ⟨x.bits ^^^ 0x8000000000000000⟩

-- ========================================================== rounding

/-- A quotient rounded to a whole number, a tie to the even neighbour. -/
def roundEven (num den : Nat) : Nat :=
  let q := num / den
  let r := num % den
  if 2 * r < den then q
  else if den < 2 * r then q + 1
  else q + q % 2

/-- The bits of the number nearest to a positive quotient, counting the
overflow to infinity as the successor of the greatest finite number. -/
def nearestBits (num den : Nat) : Nat :=
  let estimate : Int := (Nat.log2 num : Int) - (Nat.log2 den : Int) - 53
  let scaled (e : Int) : Nat × Nat :=
    let (a, b) := powerOfTwo e
    (num * b, den * a)
  let low := max estimate (-1074)
  let (n, d) := scaled low
  let e := if n / d ≥ 0x20000000000000 then low + 1 else low
  let (n, d) := scaled e
  min ((e + 1074).toNat * 0x10000000000000 + roundEven n d)
    (0x7ff0000000000000)

/-- The number nearest to a quotient, a tie going to the even neighbour. -/
def nearest (num den : Nat) : Binary64 :=
  if num = 0 ∨ den = 0 then ⟨0⟩ else ⟨UInt64.ofNat (nearestBits num den)⟩

/-- The product of two numbers that are not negative, rounded. -/
def mul (x y : Binary64) : Binary64 :=
  let (a, b) := x.quotient
  let (c, d) := y.quotient
  nearest (a * c) (b * d)

/-- The quotient of two numbers that are not negative, rounded. -/
def div (x y : Binary64) : Binary64 :=
  let (a, b) := x.quotient
  let (c, d) := y.quotient
  nearest (a * d) (b * c)

-- ================================================== shortest decimals

/-- Is a power of ten at most the quotient? -/
def powerFits (num den : Nat) (p : Int) : Bool :=
  if 0 ≤ p then den * Nat.pow 10 p.toNat ≤ num
  else den ≤ num * Nat.pow 10 (-p).toNat

/-- The last exponent, at most so many steps up, whose power of ten fits. -/
def climb (num den : Nat) : (steps : Nat) → Int → Int
  | 0, p => p
  | steps + 1, p =>
    if powerFits num den (p + 1) then climb num den steps (p + 1) else p

/-- The greatest power of ten that does not exceed a positive quotient:
the binary logarithm gives an exponent that is at most a few too small. -/
def decimalExponent (num den : Nat) : Int :=
  climb num den 8
    (((Nat.log2 num : Int) - (Nat.log2 den : Int)) * 30103 / 100000 - 2)

/-- Does a decimal, digits times a power of ten, lead back to the number?
The reals that do so reach half way to each neighbour, the two ends
themselves only for an even number of units. -/
def leadsBack (x : Binary64) (digits : Nat) (power : Int) : Bool :=
  let (a, b) := powerOfTwo (x.unitExponent - 2)
  let (p, q) :=
    if 0 ≤ power then (Nat.pow 10 power.toNat, 1)
    else (1, Nat.pow 10 (-power).toNat)
  -- the decimal and the interval's ends in quarter units over one denominator
  let decimal := digits * p * b
  let scale := a * q
  let low :=
    if x.units = 0x10000000000000 ∧ x.unitExponent ≠ -1074 then 4 * x.units - 1
    else 4 * x.units - 2
  let high := 4 * x.units + 2
  if x.units % 2 = 0 then low * scale ≤ decimal && decimal ≤ high * scale
  else low * scale < decimal && decimal < high * scale

/-- The decimals of one length that lie around the number and lead back
to it: the closer one, and the even one of two equally close. -/
def decimalOfLength? (x : Binary64) (top : Int) (length : Nat) :
    Option (Nat × Int) :=
  let power := top + 1 - length
  let (num, den) := x.quotient
  let (n, d) :=
    if 0 ≤ power then (num, den * Nat.pow 10 power.toNat)
    else (num * Nat.pow 10 (-power).toNat, den)
  let below := n / d
  let above := below + 1
  match x.leadsBack below power, x.leadsBack above power with
  | false, false => none
  | true, false => some (below, power)
  | false, true => some (above, power)
  | true, true => some (roundEven n d, power)

/-- Digits without their final zeros, the power of ten raised for each. -/
def dropZeros : Nat → Nat × Int → Nat × Int
  | 0, d => d
  | fuel + 1, (digits, power) =>
    if digits ≠ 0 ∧ digits % 10 = 0 then
      dropZeros fuel (digits / 10, power + 1)
    else (digits, power)

/-- The fewest digits, and the power of ten to multiply them with, that
lead back to a finite number other than zero. -/
def shortest (x : Binary64) : Nat × Int :=
  let (num, den) := x.quotient
  let top := decimalExponent num den
  let found :=
    (List.range 17).findSome? fun i => x.decimalOfLength? top (i + 1)
  dropZeros 20 (found.getD (0, 0))

end Binary64

end Tenancy
