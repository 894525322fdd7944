/-
Denials: why a request that was understood is not carried out. Only the
first kind says that the caller is unknown; all others that the caller
is known and not allowed. Not being a member of an organization is
reported in the same words whether or not the organization exists.
-/
import Tenancy.Role
import Tenancy.Tier

namespace Tenancy

inductive Denial where
  | unauthenticated
  | organizationContextMissing
  | organizationMembershipMissing
  | insufficientRole (allowed : List OrgRole)
  | insufficientTier (required actual : Tier)
  | systemAdminRequired
deriving DecidableEq

namespace Denial

def message : Denial → String
  | .unauthenticated => "Authentication required"
  | .organizationContextMissing =>
    "An organization must be selected for this operation"
  | .organizationMembershipMissing =>
    "You are not a member of the selected organization"
  | .insufficientRole allowed =>
    "This operation requires one of the roles: "
      ++ ", ".intercalate (allowed.map OrgRole.name)
  | .insufficientTier required _ =>
    "This feature requires the " ++ required.name ++ " plan or higher"
  | .systemAdminRequired =>
    "This operation is restricted to system administrators"

def code : Denial → String
  | .unauthenticated => "UNAUTHENTICATED"
  | .organizationContextMissing => "ORGANIZATION_CONTEXT_MISSING"
  | .organizationMembershipMissing => "ORGANIZATION_MEMBERSHIP_MISSING"
  | .insufficientRole _ => "INSUFFICIENT_ROLE"
  | .insufficientTier _ _ => "INSUFFICIENT_TIER"
  | .systemAdminRequired => "SYSTEM_ADMIN_REQUIRED"

/-- Is the caller unknown, rather than known and not allowed? -/
def isAuthenticationFailure : Denial → Bool
  | .unauthenticated => true
  | _ => false

end Denial

end Tenancy
