/-
The backfill's store in the database: each call as the statements that
answer it. Tables and columns are named in the text, always quoted;
everything else is bound. Most changes are written so that making them
again does nothing more. The constraint is not: a table takes one of a
name, and adding it again is an error, so whoever adds it asks first.
-/
import Tenancy.Backfill.Catalog
import Tenancy.Backfill.Store
import Tenancy.Scope.Stamp
import Tenancy.Sql.Identifier
import Tenancy.Sql.Server

namespace Tenancy.Backfill.DatabaseStore

open Sql
open Identifier (quote)
open Stamp (organizationColumn)

/-- A computation over the database. -/
abbrev Query := SqlProgram BackfillError

/-- A statement is run, and a failure of it is one of the backfill. -/
def run (statement : Statement) : Query Reply :=
  SqlProgram.run BackfillError.sql statement

/-- Run a statement for its effect. -/
def execute (statement : Statement) : Query Unit := do
  let _ ← run statement

/-- Run a statement; how many rows did it change? -/
def affected (statement : Statement) : Query Nat := do
  return (← run statement).affected

/-- Run a statement that answers one value. -/
def scalar {α : Type} [Decode α] (statement : Statement) : Query α := do
  let reply ← run statement
  SqlProgram.check BackfillError.sql (reply.one >>= Row.scalar)

/-- Run a statement that answers at most one value. -/
def scalar? {α : Type} [Decode α] (statement : Statement) :
    Query (Option α) := do
  let reply ← run statement
  SqlProgram.firstRow reply fun row =>
    SqlProgram.check BackfillError.sql row.scalar

-- ======================================================== statements

/-- The table of recorded steps. -/
def checkpointTable : String := "tenant_backfill_checkpoints"

/-- The organization column, quoted. -/
def organizationId : String := quote organizationColumn

/-- The index that supports the foreign key of a table. -/
def indexName (table : String) : String :=
  "idx_" ++ table ++ "_" ++ organizationColumn

/-- The name that is given to a table's foreign key. -/
def constraintName (table : String) : String :=
  "fk_" ++ table ++ "_" ++ organizationColumn

/-- The parameter that names a table. -/
def ofTable (table : String) : List Param := [.text (some table)]

/-- The parameters that name the organization's column of a table. -/
def ofColumn (table : String) : List Param :=
  [.text (some table), .text (some organizationColumn)]

/-- Is there a table of the name in the current schema? -/
def tableExists (table : String) : Statement :=
  ⟨"SELECT EXISTS (SELECT 1 FROM information_schema.tables "
    ++ "WHERE table_schema = current_schema() AND table_name = $1)",
    ofTable table⟩

/-- Has the table the organization's column? -/
def columnExists (table : String) : Statement :=
  ⟨"SELECT EXISTS ( SELECT 1 FROM information_schema.columns "
    ++ "WHERE table_schema = current_schema() AND table_name = $1 "
    ++ "AND column_name = $2 )", ofColumn table⟩

/-- Adds the column, unless the table has it. -/
def addNullableColumn (table : String) : Statement :=
  ⟨"ALTER TABLE " ++ quote table ++ " ADD COLUMN IF NOT EXISTS "
    ++ organizationId ++ " UUID", []⟩

def findOrganization (slug : String) : Statement :=
  ⟨"SELECT id FROM organizations WHERE slug = $1", [.text (some slug)]⟩

/-- Fills the rows that have no organization with that of the parent's row. -/
def deriveFromParent (table parentTable foreignKey : String) : Statement :=
  ⟨"UPDATE " ++ quote table ++ " AS child SET " ++ organizationId
    ++ " = parent." ++ organizationId ++ " FROM " ++ quote parentTable
    ++ " AS parent WHERE child." ++ quote foreignKey
    ++ " = parent.\"id\" AND child." ++ organizationId
    ++ " IS NULL AND parent." ++ organizationId ++ " IS NOT NULL", []⟩

/-- Fills them with the organization of the owner's first membership. -/
def deriveFromOwner (table ownerColumn : String) : Statement :=
  ⟨"UPDATE " ++ quote table ++ " AS target SET " ++ organizationId
    ++ " = ( SELECT m.organization_id FROM memberships m "
    ++ "WHERE m.user_id = target." ++ quote ownerColumn
    ++ " ORDER BY m.created_at ASC, m.organization_id ASC LIMIT 1) "
    ++ "WHERE target." ++ organizationId
    ++ " IS NULL AND EXISTS (SELECT 1 FROM memberships m "
    ++ "WHERE m.user_id = target." ++ quote ownerColumn ++ ")", []⟩

/-- Fills them with one organization throughout. -/
def applyDefault (table : String) (organization : Uuid) : Statement :=
  ⟨"UPDATE " ++ quote table ++ " SET " ++ organizationId ++ " = $1 WHERE "
    ++ organizationId ++ " IS NULL",
    [.uuid organization]⟩

/-- Counts the rows that have no organization. -/
def countMissing (table : String) : Statement :=
  ⟨"SELECT COUNT(*) AS count FROM " ++ quote table ++ " WHERE "
    ++ organizationId ++ " IS NULL", []⟩

/-- Tells whether the column may be null, in the catalog's words. -/
def columnNullability (table : String) : Statement :=
  ⟨"SELECT is_nullable FROM information_schema.columns "
    ++ "WHERE table_schema = current_schema() AND table_name = $1 "
    ++ "AND column_name = $2", ofColumn table⟩

/-- Makes the column mandatory. -/
def setNotNull (table : String) : Statement :=
  ⟨"ALTER TABLE " ++ quote table ++ " ALTER COLUMN " ++ organizationId
    ++ " SET NOT NULL", []⟩

/-- Is there a foreign key on the column, as the catalog is asked? -/
def foreignKeyExists (table : String) : Statement :=
  ⟨foreignKeyQuestion.sql, ofColumn table⟩

/-- Makes the supporting index, unless there is one of its name. -/
def createIndex (table : String) : Statement :=
  ⟨"CREATE INDEX IF NOT EXISTS " ++ quote (indexName table) ++ " ON "
    ++ quote table ++ " (" ++ organizationId ++ ")", []⟩

/-- Adds the foreign key. -/
def addConstraint (table : String) : Statement :=
  ⟨"ALTER TABLE " ++ quote table ++ " ADD CONSTRAINT "
    ++ quote (constraintName table)
    ++ " FOREIGN KEY (" ++ organizationId
    ++ ") REFERENCES organizations(id) ON DELETE CASCADE", []⟩

/-- Makes the table of checkpoints, unless it is there. -/
def createCheckpoints : Statement :=
  ⟨"CREATE TABLE IF NOT EXISTS " ++ checkpointTable
    ++ " ( plan_fingerprint TEXT NOT NULL, "
    ++ "step TEXT NOT NULL, completed_at TIMESTAMPTZ NOT NULL DEFAULT now(), "
    ++ "PRIMARY KEY (plan_fingerprint, step))", []⟩

/-- The keys recorded under a fingerprint. -/
def selectSteps (fingerprint : String) : Statement :=
  ⟨"SELECT step FROM " ++ checkpointTable ++ " WHERE plan_fingerprint = $1",
    [.text (some fingerprint)]⟩

/-- Records a key under a fingerprint, unless it is there. -/
def insertStep (fingerprint key : String) : Statement :=
  ⟨"INSERT INTO " ++ checkpointTable
    ++ " (plan_fingerprint, step) VALUES ($1, $2) ON CONFLICT DO NOTHING",
    [.text (some fingerprint), .text (some key)]⟩

-- ============================================================= calls

/-- The number in the column `count`, at least zero. -/
def missing (table : String) : Query Nat := do
  let reply ← run (countMissing table)
  let count : Int ←
    SqlProgram.check BackfillError.sql (do (← reply.one).get "count")
  return count.toNat

/-- May the column be null? A column that is not there may not. -/
def isNullable (table : String) : Query Bool := do
  let nullability : Option String ← scalar? (columnNullability table)
  return nullability == some "YES"

/-- The supporting index and then the constraint, which is an error where the
table has one of its name already. -/
def addForeignKey (table : String) : Query Unit := do
  execute (createIndex table)
  execute (addConstraint table)

/-- The recorded keys, each once, in order. -/
def steps (fingerprint : String) : Query (List String) := do
  let reply ← run (selectSteps fingerprint)
  let keys : List String ←
    SqlProgram.check BackfillError.sql (reply.rows.mapM Row.scalar)
  return (keys.mergeSort (· ≤ ·)).eraseDups

/-- The statements that answer a call. -/
def answer : (call : StoreCall) → Program serverInterface call.Answer
  | .tableExists table => scalar (α := Bool) (tableExists table)
  | .columnExists table => scalar (α := Bool) (columnExists table)
  | .addNullableColumn table => execute (addNullableColumn table)
  | .findOrganization slug => scalar? (α := Uuid) (findOrganization slug)
  | .deriveFromParent table parentTable foreignKey =>
    affected (deriveFromParent table parentTable foreignKey)
  | .deriveFromOwner table ownerColumn =>
    affected (deriveFromOwner table ownerColumn)
  | .applyDefault table organization =>
    affected (applyDefault table organization)
  | .countMissing table => missing table
  | .columnIsNullable table => isNullable table
  | .setNotNull table => execute (setNotNull table)
  | .foreignKeyExists table => scalar (α := Bool) (foreignKeyExists table)
  | .addForeignKey table => addForeignKey table
  | .ensureCheckpoints => execute createCheckpoints
  | .completedSteps fingerprint => steps fingerprint
  | .recordStep fingerprint key => execute (insertStep fingerprint key)

end Tenancy.Backfill.DatabaseStore
