/-
The endpoints of the service: which path and method reach each, and
which operation's precondition guards it. A path is matched as it was
sent, segment by segment; where a fixed segment and a parameter both
fit, the fixed one counts, whatever the method. A parameter may be empty
in the middle of a path, but not at its end.
-/
import Tenancy.Policy.Registry
import Tenancy.Text.Split

namespace Tenancy

/-- An endpoint that anyone may use. -/
inductive OpenEndpoint where
  | health
  | login
deriving DecidableEq

/-- An endpoint behind a guard, with the segments of its path that are
parameters. -/
inductive GuardedEndpoint where
  | whoami
  | organization
  | members
  | memberRole (userId : String)
  | scopePreview
  | findProjects
  | project (id : String)
  | organizations
  | organizationTier (id : String)
deriving DecidableEq

/-- The operation whose precondition guards an endpoint. -/
def GuardedEndpoint.operation : GuardedEndpoint → String
  | .whoami => "auth.whoami"
  | .organization => "organization.show"
  | .members => "organization.members.list"
  | .memberRole _ => "organization.members.update_role"
  | .scopePreview => "organization.scope.preview"
  | .findProjects => "organization.projects.find"
  | .project _ => "organization.projects.show"
  | .organizations => "admin.organizations.list"
  | .organizationTier _ => "admin.organizations.update_tier"

inductive Endpoint where
  | toAnyone (endpoint : OpenEndpoint)
  | guarded (endpoint : GuardedEndpoint)
deriving DecidableEq

namespace Endpoint

def method : Endpoint → String
  | .toAnyone .health => "GET"
  | .toAnyone .login => "POST"
  | .guarded endpoint =>
    match endpoint with
    | .whoami | .organization | .members | .project _ | .organizations => "GET"
    | .scopePreview | .findProjects => "POST"
    | .memberRole _ | .organizationTier _ => "PUT"

/-- The endpoint of a path's segments. -/
def ofSegments? : List String → Option Endpoint
  | ["health"] => some (.toAnyone .health)
  | ["auth", "login"] => some (.toAnyone .login)
  | ["api", "auth", "whoami"] => some (.guarded .whoami)
  | ["api", "organization"] => some (.guarded .organization)
  | ["api", "organization", "members"] => some (.guarded .members)
  | ["api", "organization", "members", userId, "role"] =>
    some (.guarded (.memberRole userId))
  | ["api", "organization", "scope", "preview"] =>
    some (.guarded .scopePreview)
  | ["api", "organization", "projects", "find"] =>
    some (.guarded .findProjects)
  | ["api", "organization", "projects", id] =>
    if id = "" then none else some (.guarded (.project id))
  | ["api", "admin", "organizations"] => some (.guarded .organizations)
  | ["api", "admin", "organizations", id, "tier"] =>
    some (.guarded (.organizationTier id))
  | _ => none

def ofPath? (path : String) : Option Endpoint :=
  match Text.splitOn '/' path with
  | "" :: segments => ofSegments? segments
  | _ => none

/-- Does an endpoint answer a method? What can be read can be asked for
without its body, too. -/
def answers (endpoint : Endpoint) (method : String) : Bool :=
  method == endpoint.method || (method == "HEAD" && endpoint.method == "GET")

end Endpoint

end Tenancy
