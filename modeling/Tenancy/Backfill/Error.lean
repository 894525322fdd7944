/-
Failures of a backfill. Each is fatal: a run stops at the first.
-/
import Tenancy.Sql.Statement

namespace Tenancy

/-- Why a backfill stopped, or could not be planned. -/
inductive BackfillError where
  | invariantViolation (table condition : String)
  | defaultOrganizationMissing (slug : String)
  | tableMissing (table : String)
  | invalidPlan (reason : String)
  | sql (failure : Sql.Failure)
deriving DecidableEq

namespace BackfillError

/-- The message of a failure; the server's own failures have none that is
stable. -/
def message : BackfillError → String
  | .invariantViolation table condition =>
    "Invariant violated on table '" ++ table ++ "': " ++ condition
  | .defaultOrganizationMissing slug =>
    "Default organization '" ++ slug ++ "' does not exist"
  | .tableMissing table => "Table '" ++ table ++ "' does not exist"
  | .invalidPlan reason => "Invalid migration plan: " ++ reason
  | .sql _ => "<database error>"

/-- The table that a failure is attributed to, if it is to one. -/
def table? : BackfillError → Option String
  | .invariantViolation table _ => some table
  | .tableMissing table => some table
  | _ => none

end BackfillError

end Tenancy
