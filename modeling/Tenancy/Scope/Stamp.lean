/-
The tenant of a row is set when the row is made, from the bound
organization, and never by a client: a payload that makes a row is
stamped, whatever it says itself, and a payload that changes a row loses
what it says.
-/
import Tenancy.Policy.Context

namespace Tenancy.Stamp

/-- The column that says whose a row is. -/
def organizationColumn : String := "organization_id"

/-- A payload that makes a row, with the bound organization put in. -/
def insert (payload : Json.Members) (organization : OrganizationContext) :
    Json.Members :=
  Json.Members.insert organizationColumn (.uuid organization.organizationId)
    payload

/-- A payload that changes a row, without the organization. -/
def strip (payload : Json.Members) : Json.Members :=
  Json.Members.erase organizationColumn payload

end Tenancy.Stamp
