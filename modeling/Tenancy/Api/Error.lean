/-
Errors as clients see them: a status, a code to act on and a message to
show. What went wrong inside — the database's own errors, values that do
not decode — is never told; a client learns at most that the service is
unavailable for now or that the database failed.
-/
import Tenancy.Database.Error
import Tenancy.Filter.Error
import Tenancy.Policy.Denial

namespace Tenancy

/-- Why a request gets an error for an answer. -/
inductive ApiError where
  | badRequest (message : String)
  | unauthorized (message : String)
  /-- Refused by the guards. -/
  | denied (reason : Denial)
  | forbidden (message : String)
  | notFound (message : String)
  | conflict (message : String)
  | internal (message : String)
  | unavailable (message : String)
deriving DecidableEq

namespace ApiError

def status : ApiError → Nat
  | .badRequest _ => 400
  | .unauthorized _ => 401
  | .denied reason => if reason.isAuthenticationFailure then 401 else 403
  | .forbidden _ => 403
  | .notFound _ => 404
  | .conflict _ => 409
  | .internal _ => 500
  | .unavailable _ => 503

/-- The message for people. -/
def message : ApiError → String
  | .denied reason => reason.message
  | .badRequest m | .unauthorized m | .forbidden m | .notFound m
  | .conflict m | .internal m | .unavailable m => m

/-- The code for programs. -/
def code : ApiError → String
  | .badRequest _ => "BAD_REQUEST"
  | .unauthorized _ => "UNAUTHENTICATED"
  | .denied reason => reason.code
  | .forbidden _ => "FORBIDDEN"
  | .notFound _ => "NOT_FOUND"
  | .conflict _ => "CONFLICT"
  | .internal _ => "INTERNAL_SERVER_ERROR"
  | .unavailable _ => "SERVICE_UNAVAILABLE"

/-- What an answer adds so that a client can tell what would have been
enough. -/
def details : ApiError → List (String × Json)
  | .denied (.insufficientTier required actual) =>
    [("required_tier", .str required.name), ("current_tier", .str actual.name)]
  | .denied (.insufficientRole allowed) =>
    [("allowed_roles", .strs (allowed.map OrgRole.name))]
  | _ => []

def toJson (e : ApiError) : Json :=
  Json.object
    ([("error", .bool true), ("message", .str e.message),
      ("code", .str e.code)] ++ e.details)

/-- What a client learns of a failure of the database. -/
def ofDatabase : DatabaseError → ApiError
  | .notFound what => .notFound what
  | .queryError reason => .badRequest reason
  | .configMissing _ | .invalidDatabaseUrl | .sql .poolTimedOut =>
    .unavailable "Database temporarily unavailable"
  | .decode _ _ | .sql _ => .internal "Database error occurred"

/-- What a client learns of a refused filter. -/
def ofFilter (e : FilterError) : ApiError := .badRequest e.message

end ApiError

end Tenancy
