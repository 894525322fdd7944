/-
One run of a backfill. First every planned table gets the column, still
nullable; then the default organization is looked up; then, table by
table, parents first, the rows get their organizations, the table is
checked to have no row without one, and the column is made mandatory and
a foreign key.

Completed steps are recorded, and a later run of the same plan skips
what is recorded — except the check, which is made every time. The step
that fills a table is recorded only behind the check, so a run that the
check stops fills the table again once the cause is mended.
-/
import Tenancy.Backfill.Plan
import Tenancy.Backfill.Report
import Tenancy.Backfill.Store

namespace Tenancy.Backfill

/-- What to run, and how. -/
structure Job where
  plan : Plan
  defaultSlug : String
  useCheckpoints : Bool
deriving DecidableEq

/-- The recorded steps that a run goes by; none if it ignores the record. -/
structure Checkpoints where
  enabled : Bool
  fingerprint : String
  completed : List String
deriving DecidableEq

namespace Checkpoints

def isDone (c : Checkpoints) (key : String) : Bool :=
  c.enabled && c.completed.contains key

def mark (c : Checkpoints) (key : String) : StoreProgram Unit :=
  if c.enabled then ask (.recordStep c.fingerprint key) else pure ()

end Checkpoints

/-- The record that a job goes by. -/
def Job.checkpoints (job : Job) : StoreProgram Checkpoints := do
  let fingerprint := job.plan.fingerprint
  if job.useCheckpoints then
    ask .ensureCheckpoints
    return ⟨true, fingerprint, ← ask (.completedSteps fingerprint)⟩
  else return ⟨false, fingerprint, []⟩

-- =========================================================== columns

/-- Give a table the column; was it added just now? -/
def addColumn (table : String) : StoreProgram Bool := do
  let isTable : Bool ← ask (.tableExists table)
  if !isTable then throw (.tableMissing table)
  let isColumn : Bool ← ask (.columnExists table)
  if isColumn then return false
  ask (.addNullableColumn table)
  return true

/-- Give every table the column: the first report of each, and those that
got it just now. -/
def addColumns (c : Checkpoints) :
    List Entry → StoreProgram (List TableReport × List String)
  | [] => pure ([], [])
  | entry :: rest => do
    let key := stepKey "add_column" entry.table
    let report := TableReport.start entry.table
    if c.isDone key then
      let (reports, added) ← addColumns c rest
      return (report.skip key :: reports, added)
    else
      let isNew ← addColumn entry.table
      c.mark key
      let (reports, added) ← addColumns c rest
      return (report :: reports, if isNew then entry.table :: added else added)

/-- The organization that rows without any other get. -/
def findDefault (c : Checkpoints) (slug : String) : StoreProgram Uuid := do
  match ← ask (.findOrganization slug) with
  | none => throw (.defaultOrganizationMissing slug)
  | some id =>
    let key := stepKey "seed_default" none
    if !c.isDone key then c.mark key
    return id

-- ============================================================ tables

/-- Fill a table by its derivation; count the rows. -/
def derive (entry : Entry) : StoreProgram Nat :=
  match entry.derivation with
  | .parent parentTable foreignKey =>
    ask (.deriveFromParent entry.table parentTable foreignKey)
  | .ownerMembership column => ask (.deriveFromOwner entry.table column)
  | .defaultOnly => pure 0

/-- Fill a table, unless that is recorded. -/
def fill (c : Checkpoints) (organization : Uuid) (entry : Entry)
    (report : TableReport) : StoreProgram TableReport := do
  let key := stepKey "derive" entry.table
  if c.isDone key then return report.skip key
  let derived ← derive entry
  let defaulted ← ask (.applyDefault entry.table organization)
  return { report with derived := derived, defaulted := defaulted }

/-- Check that no row of a table is without an organization, and record
that it was filled and checked. -/
def verify (c : Checkpoints) (table : String) : StoreProgram Unit := do
  let missing : Nat ← ask (.countMissing table)
  if missing > 0 then
    throw (.invariantViolation table
      (toString missing ++ " rows still have a NULL organization_id"))
  let filled := stepKey "derive" table
  if !c.isDone filled then c.mark filled
  let verified := stepKey "verify" table
  if !c.isDone verified then c.mark verified

/-- Make the column mandatory and a foreign key, unless that is recorded. -/
def enforce (c : Checkpoints) (table : String) (report : TableReport) :
    StoreProgram TableReport := do
  let key := stepKey "enforce" table
  if c.isDone key then return report.skip key
  let nullable : Bool ← ask (.columnIsNullable table)
  if nullable then ask (.setNotNull table)
  let hasKey : Bool ← ask (.foreignKeyExists table)
  if !hasKey then ask (.addForeignKey table)
  c.mark key
  return { report with madeNotNull := nullable, foreignKeyAdded := !hasKey }

def backfillTable (c : Checkpoints) (organization : Uuid) (entry : Entry)
    (report : TableReport) : StoreProgram TableReport := do
  let report ← fill c organization entry report
  verify c entry.table
  enforce c entry.table report

/-- Fill, check and enforce table after table. -/
def backfillTables (c : Checkpoints) (organization : Uuid) :
    List (Entry × TableReport) → StoreProgram (List TableReport)
  | [] => pure []
  | (entry, report) :: rest => do
    let report ← backfillTable c organization entry report
    let reports ← backfillTables c organization rest
    return report :: reports

def Job.run (job : Job) : StoreProgram Report := do
  let c ← job.checkpoints
  let (reports, added) ← addColumns c job.plan.tables
  let organization ← findDefault c job.defaultSlug
  let reports ← backfillTables c organization (job.plan.tables.zip reports)
  return ⟨c.fingerprint, added, organization, reports⟩

/-- What there is to say about undoing a run. -/
def downMessage : String :=
  "Tenant backfill is not reversible: organization_id columns, constraints "
    ++ "and derived values are left in place. "
    ++ "Drop them manually if a rollback is really required."

end Tenancy.Backfill
