/-
What a request says about itself: the bearer token that identifies its
caller, and the organization it selects. Both are texts still, neither
verified nor looked up; blank ones count as absent.
-/
import Tenancy.Http.Form
import Tenancy.Http.Headers

namespace Tenancy

open Http

/-- A text without surrounding blanks, if anything is left of it. -/
def presentText? (s : String) : Option String :=
  let s := Text.trim s
  if s = "" then none else some s

/-- The token of a bearer credential. -/
def bearerToken? (headers : Headers) : Option String := do
  let value ← headers.text? "authorization"
  let token ← Text.after? "Bearer ".toList value.toList
  presentText? (String.ofList token)

/-- The organization selected: by the header of the given name, else by the
first query parameter `organization_id`. -/
def organizationSelector? (headerName : String) (headers : Headers)
    (query : Option String) : Option String :=
  let fromHeader := (headers.text? headerName).bind presentText?
  fromHeader.or
    (((query.bind (formValue? · "organization_id"))).bind presentText?)

end Tenancy
