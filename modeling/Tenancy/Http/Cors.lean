/-
Answers to requests from pages of other origins. An origin is allowed if
it is one of the configured ones, letter by letter; configured entries
that cannot be the value of a header are passed over. The wildcard is no
origin but can be the value of a header: it is not passed over, and the
list of origins panics at it.

A request for the options of a resource is answered without looking at
the resource.
-/
import Tenancy.Http.Request
import Tenancy.Http.Response
import Tenancy.Panic

namespace Tenancy.Http

/-- The origins whose pages may read answers. -/
structure Cors where
  origins : List String
deriving DecidableEq

namespace Cors

/-- May a text be the value of a header? -/
def isHeaderValue (s : String) : Bool :=
  s.toList.all fun c => c = '\t' || (0x20 ≤ c.toNat && c.toNat ≠ 0x7F)

/-- A list of origins to allow, which panics if it holds the wildcard. -/
def list (origins : List String) : MayPanic Cors :=
  if origins.contains "*" then .panics else .returns ⟨origins⟩

/-- The origins among configured entries. -/
def ofEntries (entries : List String) : MayPanic Cors :=
  list (entries.filter isHeaderValue)

/-- The header that lets the page that asked read the answer. -/
def originHeaders (cors : Cors) (r : Request) : Headers :=
  match r.headers.get? "origin" with
  | some origin =>
    if cors.origins.contains origin then
      [("access-control-allow-origin", origin)]
    else []
  | none => []

/-- The answer to a request for options. -/
def options (cors : Cors) (r : Request) : Response :=
  (Response.empty 200).addHeaders (cors.originHeaders r
    ++ [("access-control-allow-methods", "*"),
      ("access-control-allow-headers", "*")])

end Cors

end Tenancy.Http
