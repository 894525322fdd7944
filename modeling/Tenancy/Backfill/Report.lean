/-
Reports: what a run of a backfill did, table by table.
-/
import Tenancy.Json.Scalars

namespace Tenancy.Backfill

/-- What happened to one table in a run. -/
structure TableReport where
  table : String
  derived : Nat
  defaulted : Nat
  madeNotNull : Bool
  foreignKeyAdded : Bool
  skippedSteps : List String
deriving DecidableEq

namespace TableReport

/-- Nothing happened yet. -/
def start (table : String) : TableReport := ⟨table, 0, 0, false, false, []⟩

/-- Did the run change the table behind adding its column? -/
def isChange (r : TableReport) : Bool :=
  r.derived > 0 || r.defaulted > 0 || r.madeNotNull || r.foreignKeyAdded

def skip (r : TableReport) (key : String) : TableReport :=
  { r with skippedSteps := r.skippedSteps ++ [key] }

end TableReport

/-- What happened in a run. -/
structure Report where
  fingerprint : String
  columnsAdded : List String
  defaultOrganization : Uuid
  tables : List TableReport
deriving DecidableEq

/-- Did the run change anything? -/
def Report.changedAnything (r : Report) : Bool :=
  !r.columnsAdded.isEmpty || r.tables.any TableReport.isChange

-- =========================================================== written

def TableReport.toJson (r : TableReport) : Json := Json.object [
  ("table", .str r.table),
  ("derived", .ofNat r.derived),
  ("defaulted", .ofNat r.defaulted),
  ("made_not_null", .bool r.madeNotNull),
  ("foreign_key_added", .bool r.foreignKeyAdded),
  ("skipped_steps", .strs r.skippedSteps)]

def Report.toJson (r : Report) : Json := Json.object [
  ("plan_fingerprint", .str r.fingerprint),
  ("columns_added", .strs r.columnsAdded),
  ("default_organization", .uuid r.defaultOrganization),
  ("tables", .arr (r.tables.map TableReport.toJson))]

end Tenancy.Backfill
