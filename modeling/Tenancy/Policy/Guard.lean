/-
Guards: the checks of a bound request against a requirement. Each is a
function of the two and nothing else; they run in a fixed order, and the
first that fails gives the denial. A system administrator passes the
checks of role and tier, but not the one that asks for an organization.
-/
import Tenancy.Policy.Context
import Tenancy.Policy.Requirement

namespace Tenancy.Guard

/-- The place: an organization must be bound, or the caller must be a
system administrator, if the operation says so. -/
def checkScope (ctx : RequestContext) (requirement : Requirement) :
    Except Denial Unit :=
  match requirement.scope with
  | .global => .ok ()
  | .adminOnly =>
    if ctx.caller.isSuperAdmin then .ok () else .error .systemAdminRequired
  | .organization => do
    let _ ← ctx.requireOrganization
    return ()

/-- The role in the bound organization must be in the set, if there is one. -/
def checkRole (ctx : RequestContext) (requirement : Requirement) :
    Except Denial Unit :=
  match requirement.roles with
  | none => .ok ()
  | some allowed =>
    if ctx.caller.isSuperAdmin then .ok ()
    else do
      let organization ← ctx.requireOrganization
      match organization.role with
      | some role =>
        if role ∈ allowed then return ()
        else throw (.insufficientRole requirement.allowedRoles)
      | none => throw (.insufficientRole requirement.allowedRoles)

/-- The bound organization's tier must be at least the one required, if one
is. -/
def checkTier (ctx : RequestContext) (requirement : Requirement) :
    Except Denial Unit :=
  match requirement.minTier with
  | none => .ok ()
  | some required =>
    if ctx.caller.isSuperAdmin then .ok ()
    else do
      let organization ← ctx.requireOrganization
      if organization.tier.satisfies required then return ()
      else throw (.insufficientTier required organization.tier)

/-- All checks in order: place, role, tier. -/
def evaluate (ctx : RequestContext) (requirement : Requirement) :
    Except Denial Unit := do
  checkScope ctx requirement
  checkRole ctx requirement
  checkTier ctx requirement

end Tenancy.Guard
