/-
Instants, to the nanosecond, on the proleptic Gregorian calendar. A leap
second may follow any minute: it belongs to the second before it, whose
nanoseconds then reach up to two thousand million, and takes no part in
counting. The written form is that of RFC 3339 in universal time, with as
few fraction digits as keep the instant, in groups of three; any offset
is read.
-/
import Tenancy.Text.Decimal

namespace Tenancy

/-- An instant: whole seconds since 1970 began, and nanoseconds of the next,
which go on through a leap second behind it. -/
structure Timestamp where
  seconds : Int
  nanos : Nat
deriving DecidableEq

namespace Timestamp

open Text

def nanosPerSecond : Nat := 1000000000

-- ========================================================== calendar

/-- Days from 1970-01-01 to a date: years are counted from March, so that
the leap day is the last of its year. -/
def daysOfDate (year : Int) (month day : Nat) : Int :=
  let y := if month ≤ 2 then year - 1 else year
  let era := y.fdiv 400
  let yearOfEra := y - era * 400
  let dayOfYear : Int := ((153 * ((month + 9) % 12) + 2) / 5 + day - 1 : Nat)
  let dayOfEra := yearOfEra * 365 + yearOfEra / 4 - yearOfEra / 100 + dayOfYear
  era * 146097 + dayOfEra - 719468

/-- The date a number of days after 1970-01-01, as year, month and day. -/
def dateOfDays (days : Int) : Int × Nat × Nat :=
  let z := days + 719468
  let era := z.fdiv 146097
  let dayOfEra := (z - era * 146097).toNat
  let yearOfEra :=
    (dayOfEra - dayOfEra / 1460 + dayOfEra / 36524 - dayOfEra / 146096) / 365
  let dayOfYear :=
    dayOfEra - (365 * yearOfEra + yearOfEra / 4 - yearOfEra / 100)
  let shifted := (5 * dayOfYear + 2) / 153
  let day := dayOfYear - (153 * shifted + 2) / 5 + 1
  let month := if shifted < 10 then shifted + 3 else shifted - 9
  let year : Int := yearOfEra + era * 400
  (if month ≤ 2 then year + 1 else year, month, day)

def isLeap (year : Int) : Bool :=
  year % 4 = 0 && (year % 100 ≠ 0 || year % 400 = 0)

def daysInMonth (year : Int) (month : Nat) : Nat :=
  if month = 2 then if isLeap year then 29 else 28
  else if month ∈ [4, 6, 9, 11] then 30 else 31

-- =========================================================== reading

/-- A number of exactly so many digits at the start of a text. -/
def fixed? (width : Nat) (cs : List Char) : Option (Nat × List Char) := do
  let digits := cs.take width
  if digits.length ≠ width then none
  return (← digitsValue? digits, cs.drop width)

/-- One of some characters at the start of a text. -/
def mark? (marks : List Char) : List Char → Option (List Char)
  | c :: rest => if c ∈ marks then some rest else none
  | [] => none

/-- A fraction of a second, in nanoseconds; finer digits do not count. -/
def fraction? (cs : List Char) : Option (Nat × List Char) := do
  let digits := cs.takeWhile fun c => (digitValue? c).isSome
  let kept := (digits ++ List.replicate 9 '0').take 9
  if digits.isEmpty then none
  return (← digitsValue? kept, cs.drop digits.length)

/-- An offset from universal time, in seconds; a minus may also be the sign
that typesetters use. -/
def offset? : List Char → Option Int
  | ['Z'] | ['z'] => some 0
  | sign :: cs => do
    if sign ∉ ['+', '-', '\u2212'] then none
    let (hours, cs) ← fixed? 2 cs
    let cs ← mark? [':'] cs
    let (minutes, cs) ← fixed? 2 cs
    if hours > 23 ∨ minutes > 59 ∨ !cs.isEmpty then none
    let seconds : Int := hours * 3600 + minutes * 60
    return if sign = '+' then seconds else -seconds
  | [] => none

/-- An instant in the form of RFC 3339, of any offset. -/
def ofString? (s : String) : Option Timestamp := do
  let (year, cs) ← fixed? 4 s.toList
  let cs ← mark? ['-'] cs
  let (month, cs) ← fixed? 2 cs
  let cs ← mark? ['-'] cs
  let (day, cs) ← fixed? 2 cs
  let cs ← mark? ['T', 't', ' '] cs
  let (hour, cs) ← fixed? 2 cs
  let cs ← mark? [':'] cs
  let (minute, cs) ← fixed? 2 cs
  let cs ← mark? [':'] cs
  let (second, cs) ← fixed? 2 cs
  let (nanos, cs) ← match cs with
    | '.' :: rest => fraction? rest
    | _ => some (0, cs)
  let offset ← offset? cs
  if month < 1 ∨ month > 12 ∨ day < 1 ∨ day > daysInMonth year month then none
  if hour > 23 ∨ minute > 59 ∨ second > 60 then none
  let clock : Int := hour * 3600 + minute * 60 + min second 59
  return ⟨daysOfDate year month day * 86400 + clock - offset,
    nanos + (second - 59) * nanosPerSecond⟩

-- =========================================================== writing

/-- The fraction digits of an instant: none, or the fewest of three, six
and nine that keep it. -/
def fractionText (nanos : Nat) : String :=
  if nanos = 0 then ""
  else if nanos % 1000000 = 0 then "." ++ padded 3 (nanos / 1000000)
  else if nanos % 1000 = 0 then "." ++ padded 6 (nanos / 1000)
  else "." ++ padded 9 nanos

/-- A year of four digits, or of more with its sign. -/
def yearText (year : Int) : String :=
  if 0 ≤ year ∧ year ≤ 9999 then padded 4 year.toNat
  else (if year < 0 then "-" else "+") ++ padded 4 year.natAbs

/-- The form of RFC 3339 in universal time. -/
protected def toString (t : Timestamp) : String :=
  let days := t.seconds.fdiv 86400
  let clock := (t.seconds - days * 86400).toNat
  let (year, month, day) := dateOfDays days
  let second := clock % 60 + t.nanos / nanosPerSecond
  yearText year ++ "-" ++ padded 2 month ++ "-" ++ padded 2 day ++ "T"
    ++ padded 2 (clock / 3600) ++ ":" ++ padded 2 (clock / 60 % 60) ++ ":"
    ++ padded 2 second
    ++ fractionText (t.nanos % nanosPerSecond) ++ "Z"

instance : ToString Timestamp := ⟨Timestamp.toString⟩

/-- Is an instant before another, or the same? -/
def le (a b : Timestamp) : Bool :=
  a.seconds < b.seconds || (a.seconds = b.seconds && a.nanos ≤ b.nanos)

/-- The instant to the microsecond, as a database keeps it: there, a leap
second is the first of the next minute. -/
def toMicros (t : Timestamp) : Timestamp :=
  ⟨t.seconds + t.nanos / nanosPerSecond,
    t.nanos % nanosPerSecond / 1000 * 1000⟩

end Timestamp

end Tenancy
