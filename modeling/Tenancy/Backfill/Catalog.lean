/-
The question whether a table's column has a foreign key, as it is put to
the database's catalog: is there a constraint and a use of a column that
agree in some columns, where both pass some tests? The question is kept
as data, with its text and its meaning side by side.
-/
import Tenancy.Sql.Statement

namespace Tenancy.Backfill

/-- A column of one of the two catalog views that the question joins. -/
inductive CatalogColumn where
  | constraint (name : String)
  | usage (name : String)
deriving DecidableEq

/-- What a column is compared with. -/
inductive CatalogOperand where
  | column (c : CatalogColumn)
  | text (s : String)
  | currentSchema
  | param (number : Nat)
deriving DecidableEq

/-- A column and what it must equal. -/
structure CatalogTest where
  column : CatalogColumn
  operand : CatalogOperand
deriving DecidableEq

/-- The tests that join the two views, and those of the joined rows. -/
structure CatalogQuestion where
  joined : List CatalogTest
  required : List CatalogTest
deriving DecidableEq

/-- Is there a foreign key on a table's column? -/
def foreignKeyQuestion : CatalogQuestion where
  joined := [
    ⟨.constraint "constraint_name", .column (.usage "constraint_name")⟩,
    ⟨.constraint "table_schema", .column (.usage "table_schema")⟩]
  required := [
    ⟨.constraint "constraint_type", .text "FOREIGN KEY"⟩,
    ⟨.constraint "table_schema", .currentSchema⟩,
    ⟨.constraint "table_name", .param 1⟩,
    ⟨.usage "column_name", .param 2⟩]

-- ============================================================== text

def CatalogColumn.sql : CatalogColumn → String
  | .constraint name => "tc." ++ name
  | .usage name => "kcu." ++ name

def CatalogOperand.sql : CatalogOperand → String
  | .column c => c.sql
  | .text s => "'" ++ s ++ "'"
  | .currentSchema => "current_schema()"
  | .param number => "$" ++ toString number

def CatalogTest.sql (test : CatalogTest) : String :=
  test.column.sql ++ " = " ++ test.operand.sql

def CatalogQuestion.sql (question : CatalogQuestion) : String :=
  "SELECT EXISTS ( SELECT 1 FROM information_schema.table_constraints tc "
    ++ "JOIN information_schema.key_column_usage kcu ON "
    ++ " AND ".intercalate (question.joined.map CatalogTest.sql) ++ " WHERE "
    ++ " AND ".intercalate (question.required.map CatalogTest.sql) ++ " )"

-- =========================================================== meaning

/-- A row of a catalog view: its texts by column. -/
abbrev CatalogRow := String → String

/-- The two views of a database, with the schema that names resolve in. -/
structure Catalog where
  schema : String
  constraints : List CatalogRow
  usages : List CatalogRow

def CatalogColumn.value (constraint usage : CatalogRow) :
    CatalogColumn → String
  | .constraint name => constraint name
  | .usage name => usage name

def CatalogOperand.value (catalog : Catalog) (params : List String)
    (constraint usage : CatalogRow) : CatalogOperand → String
  | .column c => c.value constraint usage
  | .text s => s
  | .currentSchema => catalog.schema
  | .param number => params.getD (number - 1) ""

def CatalogTest.holds (catalog : Catalog) (params : List String)
    (constraint usage : CatalogRow) (test : CatalogTest) : Bool :=
  test.column.value constraint usage
    == test.operand.value catalog params constraint usage

def CatalogQuestion.holds (question : CatalogQuestion) (catalog : Catalog)
    (params : List String) : Bool :=
  catalog.constraints.any fun c => catalog.usages.any fun u =>
    (question.joined ++ question.required).all (·.holds catalog params c u)

end Tenancy.Backfill
