/-
The operators of a where-object: what may stand, behind a dollar sign,
as a key under a column's name.
-/
namespace Tenancy

/-- An operator on one column. -/
inductive FilterOperator where
  | eq
  | ne
  | gt
  | gte
  | lt
  | lte
  | like
  | ilike
  | in_
  | notIn
  | between
  | null
deriving DecidableEq

namespace FilterOperator

def key : FilterOperator → String
  | .eq => "$eq"
  | .ne => "$ne"
  | .gt => "$gt"
  | .gte => "$gte"
  | .lt => "$lt"
  | .lte => "$lte"
  | .like => "$like"
  | .ilike => "$ilike"
  | .in_ => "$in"
  | .notIn => "$nin"
  | .between => "$between"
  | .null => "$null"

def all : List FilterOperator :=
  [.eq, .ne, .gt, .gte, .lt, .lte, .like, .ilike, .in_, .notIn, .between,
    .null]

/-- The operator that a key names; inequality has a second key. -/
def ofKey? (text : String) : Option FilterOperator :=
  if text = "$neq" then some .ne else all.find? fun op => op.key == text

theorem ofKey?_key (op : FilterOperator) : ofKey? op.key = some op := by
  cases op <;> decide

end FilterOperator

end Tenancy
