/-
Sort orders. A client spells an order as one text of comma-separated
entries, as a list of such texts, or as an object from columns to
directions; all lead to the same list of sort keys. The directions are
looked at while the entries are read, the column names only afterwards,
so an unknown direction anywhere is reported before a bad column.
-/
import Tenancy.Filter.Error
import Tenancy.Json.Printer
import Tenancy.Sql.Identifier
import Tenancy.Text.Split

namespace Tenancy.Filter

open Sql

/-- The direction of a sort. -/
inductive Direction where
  | ascending
  | descending
deriving DecidableEq

def Direction.text : Direction → String
  | .ascending => "ASC"
  | .descending => "DESC"

/-- A column to sort by, and the direction. -/
structure SortKey where
  column : String
  direction : Direction
deriving DecidableEq

namespace Order

-- =========================================================== reading

/-- A direction, in letters of any case. -/
def direction (text : String) : Except FilterError Direction :=
  if Text.sameIgnoringCase text "asc" then .ok .ascending
  else if Text.sameIgnoringCase text "desc" then .ok .descending
  else .error (.invalidOrder ("sort direction " ++ text))

/-- One entry: a column and perhaps a direction, ascending without one. A
blank entry stands for no key, and words behind the direction do not count. -/
def entry (cs : List Char) : Except FilterError (List SortKey) :=
  match Text.words cs with
  | [] => .ok []
  | [column] => .ok [⟨String.ofList column, .ascending⟩]
  | column :: word :: _ => do
    return [⟨String.ofList column, ← direction (String.ofList word)⟩]

/-- The keys of entries, refused at the first bad direction. -/
def entries : List (List Char) → Except FilterError (List SortKey)
  | [] => .ok []
  | e :: rest => do
    let keys ← entry e
    let more ← entries rest
    return keys ++ more

/-- The keys of a text of comma-separated entries. -/
def keysOfText (s : String) : Except FilterError (List SortKey) :=
  entries (Text.pieces (· == ',') s.toList)

/-- The keys of a list of texts. -/
def keysOfItems : List Json → Except FilterError (List SortKey)
  | [] => .ok []
  | .str s :: rest => do
    let keys ← keysOfText s
    let more ← keysOfItems rest
    return keys ++ more
  | v :: _ => .error (.invalidOrder ("entry " ++ v.compact))

/-- The keys of an object; a direction that is no text is ascending. -/
def keysOfMembers : Json.Members → Except FilterError (List SortKey)
  | [] => .ok []
  | (column, v) :: rest => do
    let direction ← direction (v.str?.getD "asc")
    let more ← keysOfMembers rest
    return ⟨column, direction⟩ :: more

/-- The keys of an order in any of its spellings, the column names
unchecked. -/
def keys : Json → Except FilterError (List SortKey)
  | .null => .ok []
  | .str s => keysOfText s
  | .arr items => keysOfItems items
  | .obj members => keysOfMembers members
  | v => .error (.invalidOrder v.compact)

/-- Refuse the first column name that is not valid. -/
def checkColumns : List SortKey → Except FilterError Unit
  | [] => .ok ()
  | key :: rest => do
    checkColumn Identifier.isValid key.column
    checkColumns rest

/-- The sort keys that a client's order spells. -/
def parse (order : Json) : Except FilterError (List SortKey) := do
  let keys ← keys order
  checkColumns keys
  return keys

-- =========================================================== writing

def SortKey.text (key : SortKey) : String :=
  Identifier.enclose key.column ++ " " ++ key.direction.text

/-- The ORDER BY clause, empty without keys. -/
def clause (keys : List SortKey) : String :=
  if keys.isEmpty then ""
  else "ORDER BY " ++ ", ".intercalate (keys.map SortKey.text)

end Order

end Tenancy.Filter
