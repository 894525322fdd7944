/-
Failures of the shared database, as its callers see them.
-/
import Tenancy.Sql.Statement

namespace Tenancy

/-- Why a database did not do what it was asked for. -/
inductive DatabaseError where
  /-- A variable that must be set is not. -/
  | configMissing (name : String)
  | invalidDatabaseUrl
  | notFound (what : String)
  /-- The caller's query cannot be run. -/
  | queryError (reason : String)
  /-- A column holds a text that names no known value. -/
  | decode (column value : String)
  | sql (failure : Sql.Failure)
deriving DecidableEq

/-- The message of a failure; the server's own failures have none that is
stable. -/
def DatabaseError.message : DatabaseError → String
  | .configMissing name => "Missing configuration: " ++ name
  | .invalidDatabaseUrl => "Invalid database URL"
  | .notFound what => "Not found: " ++ what
  | .queryError reason => "Query error: " ++ reason
  | .decode column value =>
    "Invalid value in column '" ++ column ++ "': " ++ value
  | .sql _ => "<database error>"

end Tenancy
