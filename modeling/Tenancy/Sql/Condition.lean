/-
Conditions of a WHERE clause. A condition is a tree whose leaves name
columns and placeholders; its text follows SQL's precedence — NOT binds
tighter than AND, AND tighter than OR — so parentheses are written only
where the tree says so, by a group node. Values never stand in the text:
a leaf holds the number of the placeholder that carries the value.

Column names of a filter are enclosed as they are, being valid names;
names of a table description may be any text and are quoted.
-/
import Tenancy.Sql.Identifier

namespace Tenancy.Sql

/-- A comparison of a column with one value. -/
inductive Comparison where
  | eq
  | ne
  | gt
  | gte
  | lt
  | lte
  | like
  | ilike
deriving DecidableEq

/-- The operator between column and value. -/
def Comparison.text : Comparison → String
  | .eq => "="
  | .ne => "<>"
  | .gt => ">"
  | .gte => ">="
  | .lt => "<"
  | .lte => "<="
  | .like => "LIKE"
  | .ilike => "ILIKE"

/-- A column of a table. -/
structure Column where
  table : String
  name : String
deriving DecidableEq

/-- The grants that are looked up for a row: a table of grants, and its
columns for the row, the user and the organization. -/
structure GrantTable where
  table : String
  entityColumn : String
  userColumn : String
  organizationColumn : String
deriving DecidableEq

/-- A condition on the rows of one table. -/
inductive Condition where
  | truth (value : Bool)
  | compare (column : String) (by_ : Comparison) (placeholder : Nat)
  | nullness (column : String) (isNull : Bool)
  | membership (column : String) (isIn : Bool) (placeholders : List Nat)
  | between (column : String) (low high : Nat)
  /-- A column holds an identifier. -/
  | identified (column : Column) (placeholder : Nat)
  /-- A grant names the row, a user and an organization. -/
  | granted (grants : GrantTable) (row : Column) (user organization : Nat)
  | not (c : Condition)
  /-- The condition in parentheses. -/
  | group (c : Condition)
  | all (cs : List Condition)
  | any (cs : List Condition)

/-- A placeholder. -/
def placeholderText (n : Nat) : String := "$" ++ toString n

/-- A placeholder whose value is an identifier. -/
def uuidText (n : Nat) : String := placeholderText n ++ "::uuid"

def Column.text (c : Column) : String :=
  Identifier.quote c.table ++ "." ++ Identifier.quote c.name

/-- The constants. -/
def truthText (value : Bool) : String := if value then "TRUE" else "FALSE"

/-- The lookup of a grant, under the alias peer. -/
def grantedText (grants : GrantTable) (row : Column)
    (user organization : Nat) : String :=
  "EXISTS (SELECT 1 FROM " ++ Identifier.quote grants.table
    ++ " peer WHERE peer."
    ++ Identifier.quote grants.entityColumn ++ " = " ++ row.text
    ++ " AND peer." ++ Identifier.quote grants.userColumn ++ " = "
    ++ uuidText user
    ++ " AND peer." ++ Identifier.quote grants.organizationColumn ++ " = "
    ++ uuidText organization
    ++ ")"

mutual

def Condition.text : Condition → String
  | .truth value => truthText value
  | .compare column op n =>
    Identifier.enclose column ++ " " ++ op.text ++ " " ++ placeholderText n
  | .nullness column true => Identifier.enclose column ++ " IS NULL"
  | .nullness column false => Identifier.enclose column ++ " IS NOT NULL"
  | .membership column isIn ns =>
    Identifier.enclose column ++ (if isIn then " IN (" else " NOT IN (")
      ++ ", ".intercalate (ns.map placeholderText) ++ ")"
  | .between column low high =>
    Identifier.enclose column ++ " BETWEEN " ++ placeholderText low ++ " AND "
      ++ placeholderText high
  | .identified column n => column.text ++ " = " ++ uuidText n
  | .granted grants row user organization =>
    grantedText grants row user organization
  | .not c => "NOT (" ++ c.text ++ ")"
  | .group c => "(" ++ c.text ++ ")"
  | .all [] => truthText true
  | .all (c :: cs) =>
    " AND ".intercalate (Condition.text c :: Condition.texts cs)
  | .any [] => truthText false
  | .any (c :: cs) =>
    " OR ".intercalate (Condition.text c :: Condition.texts cs)

def Condition.texts : List Condition → List String
  | [] => []
  | c :: cs => c.text :: Condition.texts cs

end

end Tenancy.Sql
