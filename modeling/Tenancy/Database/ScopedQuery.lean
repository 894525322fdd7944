/-
Queries over one tenants' table, with the client's filter always under a
scope. The condition of every statement is the scope's in parentheses
and the filter's in parentheses, and for a lookup the row's identifier;
the parameters are the scope's, then the filter's operands, then the
identifier. Select and count share that condition, so that a total
counts what the pages show.
-/
import Tenancy.Database.Error
import Tenancy.Filter.Basic
import Tenancy.Scope.Predicate

namespace Tenancy

/-- A query over an entity's table, under a scope. -/
structure ScopedQuery where
  entity : Entity
  scope : Predicate
  filter : Filter

namespace ScopedQuery

open Sql

/-- A refused filter makes a query that cannot be run. -/
def refuse {α : Type} : Except FilterError α → Except DatabaseError α
  | .ok a => .ok a
  | .error e => .error (.queryError e.message)

/-- A query with a client's filter; limits above the cap become the cap. -/
def withFilter (cap : Option Int) (entity : Entity) (scope : Predicate)
    (data : FilterData) : Except DatabaseError ScopedQuery := do
  return ⟨entity, scope, ← refuse (Filter.ofData cap data)⟩

/-- A query without a client's filter. -/
def unfiltered (entity : Entity) (scope : Predicate) : ScopedQuery :=
  ⟨entity, scope, .empty⟩

/-- The condition of a statement and its parameters, for one row if an
identifier is given. -/
def condition (q : ScopedQuery) (id : Option Uuid) :
    Except DatabaseError (Condition × List Json) := do
  let (scope, ids) := q.scope.condition q.entity 0
  let (client, operands) ← refuse (q.filter.whereFragment ids.length)
  let params := ids.map Json.uuid ++ operands
  match id with
  | none => return (.all [.group scope, .group client], params)
  | some id =>
    let lookup := Condition.identified q.entity.idOf (params.length + 1)
    return (.all [.group scope, .group client, lookup], params ++ [.uuid id])

/-- The statement that selects rows, or one row. -/
def select (q : ScopedQuery) (id : Option Uuid) :
    Except DatabaseError (String × List Json) := do
  let (condition, params) ← q.condition id
  let clauses := [
    "SELECT " ++ q.filter.selectClause,
    "FROM " ++ Identifier.quote q.entity.table,
    "WHERE " ++ condition.text,
    q.filter.orderClause,
    q.filter.limitClause]
  return (" ".intercalate (clauses.filter (· ≠ "")), params)

/-- The statement that counts the rows of all pages. -/
def count (q : ScopedQuery) : Except DatabaseError (String × List Json) := do
  let (condition, params) ← q.condition none
  return ("SELECT COUNT(*) as count FROM " ++ Identifier.quote q.entity.table
    ++ " WHERE "
    ++ condition.text, params)

end ScopedQuery

end Tenancy
