/-
What an operation's outcome looks like as a response: data in an
envelope that says success, an error by its status with its body, and a
request that could not be read by a status with a plain text. Where the
operation has panicked there is no response.
-/
import Tenancy.Api.Error
import Tenancy.Http.Response
import Tenancy.Panic

namespace Tenancy

open Http

/-- Why the path or the body of a request was not read. -/
inductive Rejection where
  /-- A part of the path is no identifier. -/
  | path
  | contentType
  | largeBody
  | malformedBody
  | mismatchedBody
deriving DecidableEq

namespace Rejection

def status : Rejection → Nat
  | .path | .malformedBody => 400
  | .largeBody => 413
  | .contentType => 415
  | .mismatchedBody => 422

def message : Rejection → String
  | .path => "Invalid URL: cannot parse an identifier"
  | .contentType => "Expected request with `Content-Type: application/json`"
  | .largeBody => "Failed to buffer the request body: length limit exceeded"
  | .malformedBody => "Failed to parse the request body as JSON"
  | .mismatchedBody =>
    "Failed to deserialize the JSON body into the target type"

end Rejection

/-- Why an operation has no result. -/
inductive Refusal where
  | rejected (reason : Rejection)
  | failed (e : ApiError)
  | panicked
deriving DecidableEq

namespace Reply

/-- Data in the envelope of success. -/
def success (status : Nat) (data : Json) : Response :=
  .json status (Json.object [("success", .bool true), ("data", data)])

/-- The answer where data cannot be written. -/
def unwritable : Response :=
  .json 500 (Json.object [
    ("success", .bool false),
    ("error", .str "Failed to serialize response data")])

/-- Data that may turn out not to be writable. -/
def ofData (status : Nat) : Option Json → Response
  | some data => success status data
  | none => unwritable

def ofError (e : ApiError) : Response := .json e.status e.toJson

def ofRefusal : Refusal → MayPanic Response
  | .rejected reason => .returns (.text reason.status reason.message)
  | .failed e => .returns (ofError e)
  | .panicked => .panics

end Reply

end Tenancy
