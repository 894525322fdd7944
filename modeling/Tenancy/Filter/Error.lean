/-
Refusals of a client's filter. Each is the client's mistake, and its
message is shown to the client.
-/
namespace Tenancy

/-- Why a filter was refused. -/
inductive FilterError where
  | invalidColumn (name : String)
  /-- A condition was given as SQL text. -/
  | rawSql
  | invalidWhereClause (reason : String)
  | unsupportedOperator (key : String)
  | invalidOperatorData (reason : String)
  | invalidOrder (reason : String)
  | negativePagination (field : String) (value : Int)
deriving DecidableEq

def FilterError.message : FilterError → String
  | .invalidColumn name => "Invalid column name: " ++ name
  | .rawSql => "Raw SQL conditions are not supported"
  | .invalidWhereClause reason => "Invalid WHERE clause: " ++ reason
  | .unsupportedOperator key => "Unsupported operator: " ++ key
  | .invalidOperatorData reason => "Invalid operator data: " ++ reason
  | .invalidOrder reason => "Invalid order: " ++ reason
  | .negativePagination field value =>
    field ++ " must be non-negative, got " ++ toString value

/-- The name of a column that a client wrote, if it is a valid one. -/
def checkColumn (isValid : String → Bool) (name : String) :
    Except FilterError Unit :=
  if isValid name then .ok () else .error (.invalidColumn name)

end Tenancy
