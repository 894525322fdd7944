/-
A client's filter: projection, condition, order and pagination of one
query. A filter never makes a statement on its own; its clauses stand
behind a tenant scope (Database/ScopedQuery).

A filter is built by setting its parts. Setting a part checks it, and a
refused part leaves the filter as it was. Parts assigned together are
set one after the other, and those before the first refused one stay.
-/
import Tenancy.Filter.Order
import Tenancy.Filter.Where

namespace Tenancy

open Sql

/-- The parts of a query that a client may give, none of them checked yet. -/
structure FilterData where
  select : Option (List String)
  condition : Option Json
  order : Option Json
  limit : Option Int
  offset : Option Int
deriving DecidableEq

/-- A filter whose parts have passed their checks. -/
structure Filter where
  columns : List String
  condition : Option Json
  order : List Filter.SortKey
  limit : Option Int
  offset : Option Int
deriving DecidableEq

namespace Filter

/-- The filter that asks for nothing. -/
def empty : Filter := ⟨[], none, [], none, none⟩

-- ============================================================= parts

/-- A part of a filter, with what it is to be set to. -/
inductive Part where
  | select (columns : List String)
  | condition (value : Json)
  | order (value : Json)
  | limit (n : Int)
  | offset (n : Int)

/-- Refuse the first column that is neither a valid name nor a star. -/
def checkSelect : List String → Except FilterError Unit
  | [] => .ok ()
  | column :: rest => do
    if column ≠ "*" then checkColumn Identifier.isValid column
    checkSelect rest

/-- Set one part of a filter. A limit above the cap becomes the cap. -/
def set (cap : Option Int) (filter : Filter) : Part → Except FilterError Filter
  | .select columns => do
    checkSelect columns
    return { filter with columns := columns }
  | .condition value => do
    Where.validate value
    return { filter with condition := some value }
  | .order value => do
    let keys ← Order.parse value
    return { filter with order := keys }
  | .limit n =>
    if n < 0 then .error (.negativePagination "limit" n)
    else .ok { filter with limit := some (match cap with
      | some cap => if n > cap then cap else n
      | none => n) }
  | .offset n =>
    if n < 0 then .error (.negativePagination "offset" n)
    else .ok { filter with offset := some n }

/-- The parts that are given, in the order in which they are set. -/
def parts (data : FilterData) : List Part :=
  (data.select.map Part.select).toList
    ++ (data.condition.map Part.condition).toList
    ++ (data.order.map Part.order).toList ++ (data.limit.map Part.limit).toList
    ++ (data.offset.map Part.offset).toList

/-- Set parts one after the other, up to the first refused one. -/
def setAll (cap : Option Int) (filter : Filter) :
    List Part → Filter × Except FilterError Unit
  | [] => (filter, .ok ())
  | part :: rest =>
    match filter.set cap part with
    | .ok filter => setAll cap filter rest
    | .error e => (filter, .error e)

def assign (cap : Option Int) (filter : Filter) (data : FilterData) :
    Filter × Except FilterError Unit :=
  setAll cap filter (parts data)

def ofData (cap : Option Int) (data : FilterData) :
    Except FilterError Filter :=
  match assign cap empty data with
  | (filter, .ok ()) => .ok filter
  | (_, .error e) => .error e

-- =========================================================== clauses

/-- The projection: every column unless some are named and none is a star. -/
def selectClause (filter : Filter) : String :=
  if filter.columns.isEmpty || filter.columns.contains "*" then "*"
  else ", ".intercalate (filter.columns.map Identifier.enclose)

/-- The condition, its operands numbered on from a start. -/
def whereFragment (filter : Filter) (start : Nat) :
    Except FilterError Where.Fragment :=
  match filter.condition with
  | some value => Where.condition start value
  | none => .ok (.truth true, [])

def orderClause (filter : Filter) : String := Order.clause filter.order

/-- The pagination; an offset applies with or without a limit. -/
def limitClause (filter : Filter) : String :=
  match filter.limit, filter.offset with
  | some l, some o => "LIMIT " ++ toString l ++ " OFFSET " ++ toString o
  | some l, none => "LIMIT " ++ toString l
  | none, some o => "OFFSET " ++ toString o
  | none, none => ""

end Filter

end Tenancy
