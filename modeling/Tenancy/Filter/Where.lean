/-
Where-objects: a client's condition as a JSON tree. An object is the
conjunction of its members, in the order of their names; a member is a
column with a value or with an object of operators, or one of the
connectives $and, $or and $not. A tree becomes a SQL condition and the
list of its operands; the operands are numbered on from a start, so that
the condition can stand behind others in one statement.

Only operators on columns, connectives, and operands that are scalars
are accepted. A refusal names the first fault in the order of the tree,
where the operators of one column are looked up before any of their
operands is.
-/
import Tenancy.Filter.Error
import Tenancy.Filter.Operator
import Tenancy.Json.Printer
import Tenancy.Sql.Condition

namespace Tenancy.Filter.Where

open Sql

/-- A condition with the operands it refers to, in the order of their
numbers. -/
abbrev Fragment := Condition × List Json

/-- A client's condition must be an object, or null for none. -/
def validate : Json → Except FilterError Unit
  | .null | .obj _ => .ok ()
  | .str _ => .error .rawSql
  | _ => .error (.invalidWhereClause "WHERE must be an object")

-- ========================================================== operands

/-- Operands are scalars. -/
def operand (v : Json) : Except FilterError Json :=
  if v.isScalar then .ok v
  else .error
    (.invalidOperatorData ("Unsupported parameter value: " ++ v.compact))

/-- The operands of a list, refused at the first that is none. -/
def operands : List Json → Except FilterError (List Json)
  | [] => .ok []
  | v :: rest => do
    let v ← operand v
    let rest ← operands rest
    return v :: rest

/-- A column compared with one operand, the next to be numbered. -/
def comparison (start : Nat) (column : String) (op : Comparison) (v : Json) :
    Except FilterError Fragment := do
  let v ← operand v
  return (.compare column op (start + 1), [v])

/-- A column's membership in a list; a scalar is a list of one. -/
def membership (start : Nat) (column : String) (isIn : Bool) (data : Json) :
    Except FilterError Fragment := do
  let values ← operands (match data with
    | .arr values => values
    | v => [v])
  if values.isEmpty then return (.truth (!isIn), [])
  return (.membership column isIn
    ((List.range values.length).map (start + 1 + ·)), values)

/-- One operator on a column. -/
def test (start : Nat) (column : String) (op : FilterOperator) (data : Json) :
    Except FilterError Fragment :=
  match op with
  | .eq =>
    if data.isNull then .ok (.nullness column true, [])
    else comparison start column .eq data
  | .ne =>
    if data.isNull then .ok (.nullness column false, [])
    else comparison start column .ne data
  | .gt => comparison start column .gt data
  | .gte => comparison start column .gte data
  | .lt => comparison start column .lt data
  | .lte => comparison start column .lte data
  | .like => comparison start column .like data
  | .ilike => comparison start column .ilike data
  | .in_ => membership start column true data
  | .notIn => membership start column false data
  | .between =>
    match data with
    | .arr [low, high] => do
      let low ← operand low
      let high ← operand high
      return (.between column (start + 1) (start + 2), [low, high])
    | _ => .error (.invalidOperatorData "$between requires exactly 2 values")
  | .null =>
    match data with
    | .bool isNull => .ok (.nullness column isNull, [])
    | _ => .error (.invalidOperatorData "$null requires a boolean")

-- =========================================================== columns

/-- The operators of a column's object, refused at the first unknown key. -/
def namedTests :
    Json.Members → Except FilterError (List (FilterOperator × Json))
  | [] => .ok []
  | (key, data) :: rest => do
    let some op :=
      FilterOperator.ofKey? key | .error (.unsupportedOperator key)
    let rest ← namedTests rest
    return (op, data) :: rest

/-- What is asked of a column: the operators of an object, else equality. -/
def columnTests : Json → Except FilterError (List (FilterOperator × Json))
  | .obj members => namedTests members
  | v => .ok [(.eq, v)]

/-- The tests of a column, their operands numbered one after the other. -/
def tests (start : Nat) (column : String) :
    List (FilterOperator × Json) →
      Except FilterError (List Condition × List Json)
  | [] => .ok ([], [])
  | (op, data) :: rest => do
    let (c, operands) ← test start column op data
    let (cs, more) ← tests (start + operands.length) column rest
    return (c :: cs, operands ++ more)

/-- A column's member of a where-object. -/
def column (start : Nat) (name : String) (value : Json) :
    Except FilterError (List Condition × List Json) := do
  checkColumn Identifier.isValid name
  tests start name (← columnTests value)

-- ============================================================== tree

/-- The two connectives over lists. -/
inductive Connective where
  | and
  | or
deriving DecidableEq

def Connective.key : Connective → String
  | .and => "$and"
  | .or => "$or"

/-- The connective over a list of conditions, all of them and itself in
parentheses; over none it is a constant. -/
def Connective.join (op : Connective) : List Condition → Condition
  | [] => .truth (op == .and)
  | cs =>
    let parts := cs.map Condition.group
    .group (match op with
      | .and => .all parts
      | .or => .any parts)

/-- What a key of a where-object is. -/
inductive Key where
  | column
  | connective (op : Connective)
  | not
  | unknown

/-- Keys that start with a dollar sign are connectives, all others columns. -/
def Key.of (key : String) : Key :=
  if key.toList.head? ≠ some '$' then .column
  else if key = Connective.and.key then .connective .and
  else if key = Connective.or.key then .connective .or
  else if key = "$not" then .not
  else .unknown

mutual

/-- The condition of a where-tree, its operands numbered on from a start. -/
def condition : (start : Nat) → Json → Except FilterError Fragment
  | _, .null => .ok (.truth true, [])
  | start, .obj entries => do
    let (cs, operands) ← members start entries
    return (.all cs, operands)
  | _, _ => .error (.invalidWhereClause "Unsupported WHERE format")

def members : (start : Nat) → List (String × Json) →
    Except FilterError (List Condition × List Json)
  | _, [] => .ok ([], [])
  | start, (key, value) :: rest => do
    let (cs, operands) ← match Key.of key with
      | .column => column start key value
      | .connective op => do
        let (c, operands) ← connected op start value
        pure ([c], operands)
      | .not => do
        let (c, operands) ← condition start value
        pure ([.not c], operands)
      | .unknown => .error (.unsupportedOperator key)
    let (more, others) ← members (start + operands.length) rest
    return (cs ++ more, operands ++ others)

/-- A connective over a list of trees. -/
def connected (op : Connective) :
    (start : Nat) → Json → Except FilterError Fragment
  | start, .arr items => do
    let (cs, operands) ← conditions start items
    return (op.join cs, operands)
  | _, _ => .error (.invalidOperatorData (op.key ++ " requires array"))

/-- The conditions of a list of trees. -/
def conditions :
    (start : Nat) → List Json → Except FilterError (List Condition × List Json)
  | _, [] => .ok ([], [])
  | start, v :: rest => do
    let (c, operands) ← condition start v
    let (cs, more) ← conditions (start + operands.length) rest
    return (c :: cs, operands ++ more)

end

end Tenancy.Filter.Where
