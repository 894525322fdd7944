/-
Running scoped queries, and the projects read by them. A lookup answers
the same for a row that is not there and for one out of scope.
-/
import Tenancy.Database.ScopedQuery
import Tenancy.Json.Scalars
import Tenancy.Scope.Tenant
import Tenancy.Sql.Server

namespace Tenancy

open Sql

structure Project where
  id : Uuid
  organizationId : Uuid
  userId : Uuid
  name : String
  createdAt : Timestamp
deriving DecidableEq

namespace Project

def ofRow (row : Row) : Except Failure Project := do
  return {
    id := ← row.get "id"
    organizationId := ← row.get "organization_id"
    userId := ← row.get "user_id"
    name := ← row.get "name"
    createdAt := ← row.get "created_at" }

def toJson (project : Project) : Json := Json.object [
  ("id", .uuid project.id),
  ("organization_id", .uuid project.organizationId),
  ("user_id", .uuid project.userId),
  ("name", .str project.name),
  ("created_at", .timestamp project.createdAt)]

end Project

namespace ScopedQuery

/-- A statement with its operands bound, run. -/
def run (rendered : Except DatabaseError (String × List Json)) :
    SqlProgram DatabaseError Reply := do
  let (text, params) ← ExceptT.mk (.done rendered)
  SqlProgram.run .sql ⟨text, params.map Param.ofJson⟩

def selectAll (q : ScopedQuery) : SqlProgram DatabaseError (List Project) := do
  let reply ← run (q.select none)
  SqlProgram.check .sql (reply.rows.mapM Project.ofRow)

/-- The row of an identifier, if it is in scope. -/
def findById (q : ScopedQuery) (id : Uuid) :
    SqlProgram DatabaseError (Option Project) := do
  let reply ← run (q.select (some id))
  SqlProgram.firstRow reply fun row =>
    SqlProgram.check .sql (Project.ofRow row)

/-- How many rows a query selects on all pages. -/
def countAll (q : ScopedQuery) : SqlProgram DatabaseError Int := do
  let reply ← run q.count
  SqlProgram.check .sql (do (← reply.one).get "count")

end ScopedQuery

/-- One entity's rows, as a request's scope shows them. -/
structure Repository where
  entity : Entity
  /-- The greatest limit a client may ask for. -/
  limitCap : Option Int

namespace Repository

/-- The query of a scope and a client's filter. -/
def query (r : Repository) (scope : TenantScope) (data : FilterData) :
    SqlProgram DatabaseError ScopedQuery :=
  ExceptT.mk
    (.done (ScopedQuery.withFilter r.limitCap r.entity scope.predicate data))

def selectAny (r : Repository) (scope : TenantScope) (data : FilterData) :
    SqlProgram DatabaseError (List Project) := do
  (← r.query scope data).selectAll

/-- The row of an identifier, a failure if it is not in scope. -/
def selectOne (r : Repository) (scope : TenantScope) (id : Uuid) :
    SqlProgram DatabaseError Project := do
  match ← (ScopedQuery.unfiltered r.entity scope.predicate).findById id with
  | some project => return project
  | none => throw (.notFound (r.entity.name ++ " not found"))

def count (r : Repository) (scope : TenantScope) (data : FilterData) :
    SqlProgram DatabaseError Int := do
  (← r.query scope data).countAll

end Repository

end Tenancy
