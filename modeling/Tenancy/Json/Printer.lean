/-
The written forms of JSON values: compact, without any blank, and
indented by two spaces a level. A floating-point number shows the fewest
digits that read back, always with a point or an exponent, so that it
reads back as a floating-point number. In texts only the quote, the
backslash and the characters below the space are escaped.
-/
import Tenancy.Json.Basic
import Tenancy.Text.Hex

namespace Tenancy.Json

-- =========================================================== numbers

/-- An exponent, always with its sign. -/
def exponentText (e : Int) : String :=
  (if e < 0 then "e-" else "e+") ++ toString e.natAbs

/-- A positive decimal: positional from 1e-5 up to and including sixteen
whole digits, with an exponent beyond. -/
def decimalText (digits : Nat) (power : Int) : String :=
  let shown := toString digits
  let length : Int := shown.length
  let point := length + power
  if 0 ≤ power ∧ point ≤ 16 then
    shown ++ String.ofList (List.replicate power.toNat '0') ++ ".0"
  else if 0 < point ∧ point ≤ 16 then
    String.ofList (shown.toList.take point.toNat) ++ "."
      ++ String.ofList (shown.toList.drop point.toNat)
  else if -5 < point ∧ point ≤ 0 then
    "0." ++ String.ofList (List.replicate (-point).toNat '0') ++ shown
  else
    let mantissa := match shown.toList with
      | [] => ""
      | [d] => String.ofList [d]
      | d :: rest => String.ofList (d :: '.' :: rest)
    mantissa ++ exponentText (point - 1)

/-- A floating-point number; the values that are no numbers are null. -/
def floatText (x : Binary64) : String :=
  if !x.isFinite then "null"
  else
    let sign := if x.isNegative then "-" else ""
    if x.units = 0 then sign ++ "0.0"
    else
      let (digits, power) := x.shortest
      sign ++ decimalText digits power

-- ============================================================= texts

/-- A character as it stands inside quotes. -/
def escape (c : Char) : List Char :=
  if c = '"' then ['\\', '"']
  else if c = '\\' then ['\\', '\\']
  else if 0x20 ≤ c.toNat then [c]
  else if c.toNat = 8 then ['\\', 'b']
  else if c.toNat = 9 then ['\\', 't']
  else if c.toNat = 10 then ['\\', 'n']
  else if c.toNat = 12 then ['\\', 'f']
  else if c.toNat = 13 then ['\\', 'r']
  else '\\' :: 'u' :: Text.hexDigits 4 c.toNat

/-- A text in quotes. -/
def quote (s : String) : String :=
  String.ofList ('"' :: s.toList.flatMap escape ++ ['"'])

-- =========================================================== compact

mutual

/-- The form without blanks. -/
def compact : Json → String
  | .null => "null"
  | .bool true => "true"
  | .bool false => "false"
  | .int n => toString n
  | .float x => floatText x
  | .str s => quote s
  | .arr items => "[" ++ ",".intercalate (compactItems items) ++ "]"
  | .obj members =>
    "\x7b" ++ ",".intercalate (compactMembers members) ++ "\x7d"

def compactItems : List Json → List String
  | [] => []
  | v :: rest => compact v :: compactItems rest

def compactMembers : List (String × Json) → List String
  | [] => []
  | (k, v) :: rest => (quote k ++ ":" ++ compact v) :: compactMembers rest

end

-- ========================================================== indented

/-- Lines between two brackets, a level further in than the brackets. -/
def bracketed (level : Nat) (opening closing : String) (lines : List String) :
    String :=
  if lines.isEmpty then opening ++ closing
  else
    let margin := String.ofList (List.replicate (2 * level) ' ')
    let inner := margin ++ "  "
    opening ++ "\n" ++ inner ++ (",\n" ++ inner).intercalate lines ++ "\n"
      ++ margin ++ closing

mutual

/-- The form of one member or item a line, at a level of indentation. -/
def indented (level : Nat) : Json → String
  | .arr items => bracketed level "[" "]" (indentedItems (level + 1) items)
  | .obj members =>
    bracketed level "\x7b" "\x7d" (indentedMembers (level + 1) members)
  | .null => "null"
  | .bool true => "true"
  | .bool false => "false"
  | .int n => toString n
  | .float x => floatText x
  | .str s => quote s

def indentedItems (level : Nat) : List Json → List String
  | [] => []
  | v :: rest => indented level v :: indentedItems level rest

def indentedMembers (level : Nat) : List (String × Json) → List String
  | [] => []
  | (k, v) :: rest =>
    (quote k ++ ": " ++ indented level v) :: indentedMembers level rest

end

/-- The form of one member or item a line. -/
def pretty (v : Json) : String := indented 0 v

end Tenancy.Json
