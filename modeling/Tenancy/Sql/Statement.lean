/-
Statements and what a server answers. A statement is its text with the
values bound to its placeholders; an answer is rows of named, typed
values and the number of rows affected, or an error.

A value is taken from a row by the name of its column or, for a
statement that asks for one value, from the first column. The type
must be the one wanted, and NULL is no value.
-/
import Tenancy.Json.Printer
import Tenancy.Timestamp
import Tenancy.Uuid

namespace Tenancy.Sql

-- ======================================================== statements

/-- A value bound to a placeholder. -/
inductive Param where
  | uuid (id : Uuid)
  | text (s : Option String)
  | bool (b : Bool)
  | int8 (n : Int)
  | float8 (x : Binary64)
deriving DecidableEq

/-- How an operand of a filter is bound: a null as a text, a number as a
64-bit integer if it is one and as a floating-point number otherwise. -/
def Param.ofJson : Json → Param
  | .null => .text none
  | .bool b => .bool b
  | .int n =>
    if -0x8000000000000000 ≤ n ∧ n < 0x8000000000000000 then .int8 n
    else
      let x := Binary64.nearest n.natAbs 1
      .float8 (if n < 0 then x.negate else x)
  | .float x => .float8 x
  | .str s => .text (some s)
  | v => .text (some v.compact)

/-- A statement with the values of its placeholders. -/
structure Statement where
  text : String
  params : List Param
deriving DecidableEq

-- =========================================================== answers

inductive Value where
  | null
  | uuid (id : Uuid)
  | text (s : String)
  | bool (b : Bool)
  | int8 (n : Int)
  | int4 (n : Int)
  | float8 (x : Binary64)
  | timestamp (t : Timestamp)
deriving DecidableEq

/-- A row: its values by the names of their columns, in order. -/
abbrev Row := List (String × Value)

/-- What a server answers to a statement. -/
structure Reply where
  rows : List Row
  affected : Nat
deriving DecidableEq

/-- Why there is no answer, or none that can be used. -/
inductive Failure where
  | poolTimedOut
  | poolClosed
  | rowNotFound
  /-- The server refused the statement. -/
  | server (code message : String)
  /-- A column is missing, of another type, or NULL. -/
  | column
deriving DecidableEq

-- ====================================================== use of rows

/-- A type of values in rows. -/
class Decode (α : Type) where
  ofValue? : Value → Option α

instance : Decode Uuid := ⟨fun
  | .uuid id => some id
  | _ => none⟩

instance : Decode String := ⟨fun
  | .text s => some s
  | _ => none⟩

instance : Decode Bool := ⟨fun
  | .bool b => some b
  | _ => none⟩

/-- Whole numbers of 64 bits. -/
instance : Decode Int := ⟨fun
  | .int8 n => some n
  | _ => none⟩

instance : Decode Timestamp := ⟨fun
  | .timestamp t => some t
  | _ => none⟩

def Row.get {α : Type} [Decode α] (row : Row) (column : String) :
    Except Failure α :=
  match row.find? fun c => c.1 == column with
  | none => .error .column
  | some (_, v) =>
    match Decode.ofValue? v with
    | some a => .ok a
    | none => .error .column

/-- The value of the first column. -/
def Row.scalar {α : Type} [Decode α] (row : Row) : Except Failure α :=
  match row with
  | [] => .error .column
  | (_, v) :: _ =>
    match Decode.ofValue? v with
    | some a => .ok a
    | none => .error .column

/-- The first row, which must be there. -/
def Reply.one (reply : Reply) : Except Failure Row :=
  match reply.rows with
  | [] => .error .rowNotFound
  | row :: _ => .ok row

end Tenancy.Sql
