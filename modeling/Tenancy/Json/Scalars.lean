/-
Identifiers and instants as JSON: texts in their written forms.
-/
import Tenancy.Json.Basic
import Tenancy.Timestamp
import Tenancy.Uuid

namespace Tenancy.Json

def uuid (id : Uuid) : Json := .str id.toString

def timestamp (t : Timestamp) : Json := .str t.toString

def uuid? : Json → Option Uuid
  | .str s => Uuid.ofString? s
  | _ => none

def timestamp? : Json → Option Timestamp
  | .str s => Timestamp.ofString? s
  | _ => none

end Tenancy.Json
