/-
Scopes: which rows a caller sees. Inside an organization the clause on
the organization is always there; beyond it, a caller sees the rows of
their own and those granted to them inside that organization, and a
system administrator every row of it. Only a system administrator gets
the scope that spans all organizations.
-/
import Tenancy.Policy.Context
import Tenancy.Scope.Predicate

namespace Tenancy

/-- What one caller sees inside one organization. -/
structure TenantScope where
  organizationId : Uuid
  callerId : Uuid
  /-- Every row of the organization rather than the caller's own and granted
  ones. -/
  organizationWide : Bool
deriving DecidableEq

/-- Sight of every organization. -/
structure CrossTenantScope where
  grantedTo : Uuid
deriving DecidableEq

namespace TenantScope

/-- A caller's own and granted rows. -/
def personal (organizationId callerId : Uuid) : TenantScope :=
  ⟨organizationId, callerId, false⟩

/-- The scope of a bound request. -/
def ofRequest (ctx : RequestContext) : Except Denial TenantScope := do
  let organization ← ctx.requireOrganization
  return ⟨organization.organizationId, ctx.caller.userId,
    ctx.caller.isSuperAdmin⟩

def predicate (scope : TenantScope) : Predicate :=
  if scope.organizationWide then .and [.organizationIs scope.organizationId]
  else .and [
    .organizationIs scope.organizationId,
    .or [.ownerIs scope.callerId,
      .peerGrant scope.callerId scope.organizationId]]

/-- Does the scope show a row, given all grants? -/
def admits (scope : TenantScope) (e : Entity) (row : ScopedRow)
    (grants : List PeerGrant) : Bool :=
  scope.predicate.admits e row grants

end TenantScope

namespace CrossTenantScope

/-- The scope over all organizations, for system administrators. -/
def ofCaller (caller : Caller) : Except Denial CrossTenantScope :=
  if caller.isSuperAdmin then .ok ⟨caller.userId⟩
  else .error .systemAdminRequired

def predicate (_ : CrossTenantScope) : Predicate := .always

end CrossTenantScope

end Tenancy
