/-
Any JSON value. A value is scanned as it is written, with the members of
an object in their order and with every repetition of a name, and then
brought into its normal form, where the last member of a name counts and
the names are in order.

A fault inside of brackets does not end the scan there and then: at each
level around it the closing bracket is taken if it comes next. So a scan
may give no value and yet stand behind the whole of it.
-/
import Tenancy.Json.Number

namespace Tenancy.Json

open Text

-- ============================================================ values

/-- How deep arrays and objects may nest. -/
def maxDepth : Nat := 127

mutual

/-- Any value, as written; the fuel bounds the number of octets still to be
scanned. -/
def scanTreeFor : (fuel depth : Nat) → Scan Json
  | 0, _, cs => (none, cs)
  | fuel + 1, depth, cs =>
    match skipGaps cs with
    | 'n' :: rest => scanWord .null ['u', 'l', 'l'] rest
    | 't' :: rest => scanWord (.bool true) ['r', 'u', 'e'] rest
    | 'f' :: rest => scanWord (.bool false) ['a', 'l', 's', 'e'] rest
    | '"' :: rest =>
      let (s, rest) := scanString rest
      (s.map .str, rest)
    | '[' :: rest =>
      match depth with
      | 0 => (none, '[' :: rest)
      | depth + 1 =>
        let (items, rest) :=
          closedBy closeArray (scanItemsFor fuel depth true rest)
        (items.map .arr, rest)
    | '\x7b' :: rest =>
      match depth with
      | 0 => (none, '\x7b' :: rest)
      | depth + 1 =>
        let (members, rest) :=
          closedBy closeObject (scanMembersFor fuel depth true rest)
        (members.map .obj, rest)
    | rest => scanNumber rest

/-- The items of an array, up to the bracket behind them. -/
def scanItemsFor : (fuel depth : Nat) → (isFirst : Bool) → Scan (List Json)
  | 0, _, _, cs => (none, cs)
  | fuel + 1, depth, isFirst, cs =>
    match nextItem isFirst cs with
    | (none, rest) => (none, rest)
    | (some false, rest) => (some [], rest)
    | (some true, rest) =>
      match scanTreeFor fuel depth rest with
      | (none, rest) => (none, rest)
      | (some item, rest) =>
        let (items, rest) := scanItemsFor fuel depth false rest
        (items.map (item :: ·), rest)

/-- The members of an object, up to the brace behind them. -/
def scanMembersFor :
    (fuel depth : Nat) → (isFirst : Bool) → Scan (List (String × Json))
  | 0, _, _, cs => (none, cs)
  | fuel + 1, depth, isFirst, cs =>
    match nextName isFirst cs with
    | (none, rest) => (none, rest)
    | (some false, rest) => (some [], rest)
    | (some true, rest) =>
      match scanString rest with
      | (none, rest) => (none, rest)
      | (some name, rest) =>
        match scanColon rest with
        | (none, rest) => (none, rest)
        | (some (), rest) =>
          match scanTreeFor fuel depth rest with
          | (none, rest) => (none, rest)
          | (some value, rest) =>
            let (members, rest) := scanMembersFor fuel depth false rest
            (members.map ((name, value) :: ·), rest)

end

/-- Any value, as written, that nests at most so deep: each item or member
takes an octet, and each level two steps. -/
def scanTree (depth : Nat) : Scan Json :=
  fun cs => scanTreeFor (2 * cs.length + 2) depth cs

-- ======================================================= normal forms

mutual

/-- The value with each name once in every object, in the order of names. -/
def normal : Json → Json
  | .arr items => .arr (normalItems items)
  | .obj members => object (normalMembers members)
  | .null => .null
  | .bool b => .bool b
  | .int n => .int n
  | .float x => .float x
  | .str s => .str s

def normalItems : List Json → List Json
  | [] => []
  | v :: rest => normal v :: normalItems rest

def normalMembers : List (String × Json) → List (String × Json)
  | [] => []
  | (k, v) :: rest => (k, normal v) :: normalMembers rest

end

/-- Any value that nests at most so deep. -/
def scanValue (depth : Nat) : Scan Json := fun cs =>
  let (v, rest) := scanTree depth cs
  (v.map normal, rest)

/-- The value that a whole text spells. -/
def ofString? (s : String) : Option Json :=
  match scanValue maxDepth (octets s) with
  | (some v, rest) => if (skipGaps rest).isEmpty then some v else none
  | (none, _) => none

end Tenancy.Json
