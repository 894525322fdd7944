/-
What is known of a request once it is bound: the caller, with the
memberships read for this very request, and the organization it works
in, if any. The role in the bound organization is the caller's own role
there; a role held elsewhere never counts.
-/
import Tenancy.Directory.Basic
import Tenancy.Policy.Denial

namespace Tenancy

/-- A caller whose credential was accepted. -/
structure Caller where
  userId : Uuid
  email : String
  name : String
  systemRole : SystemRole
  memberships : List Membership
deriving DecidableEq

namespace Caller

def ofUser (user : User) (memberships : List Membership) : Caller where
  userId := user.id
  email := user.email
  name := user.name
  systemRole := user.systemRole
  memberships := memberships

def isSuperAdmin (caller : Caller) : Bool := caller.systemRole.isSuperAdmin

/-- The caller's first membership in an organization. -/
def membershipIn? (caller : Caller) (organizationId : Uuid) :
    Option Membership :=
  caller.memberships.find? fun m => m.organizationId == organizationId

end Caller

/-- The organization that a request is bound to. -/
structure OrganizationContext where
  organizationId : Uuid
  /-- None only for a system administrator without a membership there. -/
  role : Option OrgRole
  tier : Tier
deriving DecidableEq

/-- The binding that a membership gives. -/
def OrganizationContext.ofMembership (m : Membership) : OrganizationContext :=
  ⟨m.organizationId, some m.role, m.tier⟩

/-- A bound request. -/
structure RequestContext where
  caller : Caller
  organization : Option OrganizationContext
deriving DecidableEq

/-- The bound organization, which work inside a tenant cannot do without —
a system administrator's neither. -/
def RequestContext.requireOrganization (ctx : RequestContext) :
    Except Denial OrganizationContext :=
  match ctx.organization with
  | some organization => .ok organization
  | none => .error .organizationContextMissing

-- =========================================================== written

def Caller.toJson (caller : Caller) : Json := Json.object [
  ("user_id", .uuid caller.userId),
  ("email", .str caller.email),
  ("name", .str caller.name),
  ("system_role", .str caller.systemRole.name),
  ("memberships", .arr (caller.memberships.map Membership.toJson))]

def OrganizationContext.toJson (organization : OrganizationContext) : Json :=
  Json.object [
  ("organization_id", .uuid organization.organizationId),
  ("role", Json.ofOption (fun r => .str (OrgRole.name r)) organization.role),
  ("tier", .str organization.tier.name)]

def RequestContext.toJson (ctx : RequestContext) : Json := Json.object [
  ("caller", ctx.caller.toJson),
  ("organization", Json.ofOption OrganizationContext.toJson ctx.organization)]

end Tenancy
