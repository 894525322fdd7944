/-
Identifiers of 128 bits. The written form is 32 lower-case digits in
groups of 8, 4, 4, 4 and 12; four spellings are read — grouped, bare,
grouped in braces, and grouped behind a URN start — with letters of
either case.
-/
import Tenancy.Text.Hex
import Tenancy.Text.Split

namespace Tenancy

/-- A 128-bit identifier. -/
structure Uuid where
  /-- The identifier as one number, its first digit the most significant. -/
  value : Fin 0x100000000000000000000000000000000
deriving DecidableEq

namespace Uuid

open Text

instance : Inhabited Uuid := ⟨⟨0⟩⟩

/-- The grouped form, as characters. -/
def toChars (id : Uuid) : List Char :=
  let digits := hexDigits 32 id.value.val
  digits.take 8 ++ '-' :: (digits.drop 8).take 4 ++ '-'
    :: (digits.drop 12).take 4
    ++ '-' :: (digits.drop 16).take 4 ++ '-' :: digits.drop 20

/-- The grouped form: 32 lower-case digits in groups of 8, 4, 4, 4 and 12. -/
protected def toString (id : Uuid) : String :=
  String.ofList id.toChars

instance : ToString Uuid := ⟨Uuid.toString⟩

/-- Exactly 32 digits. -/
def ofDigits? (digits : List Char) : Option Uuid := do
  if digits.length ≠ 32 then none
  let n ← hexFrom 0 digits
  if h : n < 0x100000000000000000000000000000000 then some ⟨⟨n, h⟩⟩ else none

/-- The digits of a grouped form, if the hyphens stand where they belong. -/
def ungroup? (cs : List Char) : Option (List Char) :=
  if cs.length = 36 ∧ cs[8]? = some '-' ∧ cs[13]? = some '-'
    ∧ cs[18]? = some '-' ∧ cs[23]? = some '-'
  then some (cs.take 8 ++ (cs.drop 9).take 4 ++ (cs.drop 14).take 4
    ++ (cs.drop 19).take 4
    ++ cs.drop 24)
  else none

/-- The grouped form, read. -/
def ofGrouped? (cs : List Char) : Option Uuid := do
  ofDigits? (← ungroup? cs)

/-- The start of the URN spelling, in either case. -/
def urnStart : String := "urn:uuid:"

/-- Any of the four spellings, told apart by their lengths. -/
def ofChars? (cs : List Char) : Option Uuid :=
  if cs.length = 32 then ofDigits? cs
  else if cs.length = 36 then ofGrouped? cs
  else if cs.length = 38 then
    if cs.head? = some '\x7b' ∧ cs.getLast? = some '\x7d' then
      ofGrouped? (cs.drop 1).dropLast
    else none
  else if cs.length = 45 then
    if sameIgnoringCase (String.ofList (cs.take 9)) urnStart then
      ofGrouped? (cs.drop 9)
    else none
  else none

def ofString? (s : String) : Option Uuid :=
  ofChars? s.toList

theorem length_toChars (id : Uuid) : id.toChars.length = 36 := by
  simp [toChars, length_hexDigits]

end Uuid

end Tenancy
