/-
The parts of a filter as a JSON value: an object of the five parts, each
of which may be missing or null, or an array of exactly the five in the
order select, where, order, limit, offset. Other members are ignored.
-/
import Tenancy.Filter.Basic

namespace Tenancy.FilterData

/-- The filter that gives no part. -/
def empty : FilterData := ⟨none, none, none, none, none⟩

/-- A whole number of 32 signed bits. -/
def int32? : Json → Option Int
  | .int n => if -0x80000000 ≤ n ∧ n < 0x80000000 then some n else none
  | _ => none

def strings? : Json → Option (List String)
  | .arr items => items.mapM Json.str?
  | _ => none

def nullable? {α : Type} (read : Json → Option α) : Json → Option (Option α)
  | .null => some none
  | v => (read v).map some

/-- The five parts, each of them null where it is not given. -/
def ofParts? (select condition order limit offset : Json) :
    Option FilterData := do
  return {
    select := ← nullable? strings? select
    condition := ← nullable? some condition
    order := ← nullable? some order
    limit := ← nullable? int32? limit
    offset := ← nullable? int32? offset }

/-- The parts that a JSON value gives. -/
def ofJson? : Json → Option FilterData
  | .arr [select, condition, order, limit, offset] =>
    ofParts? select condition order limit offset
  | .obj members =>
    let v := Json.obj members
    ofParts? (v.get "select") (v.get "where") (v.get "order") (v.get "limit")
      (v.get "offset")
  | _ => none

end Tenancy.FilterData
