/-
The declared precondition of an operation: where it runs, and which
roles and which tier it asks for. Without a set of roles or a tier there
is no restriction beyond the place. The roles are a set: it does not
matter in which order, or how often, they were named.
-/
import Tenancy.Json.Basic
import Tenancy.Role
import Tenancy.Tier

namespace Tenancy

/-- Where an operation runs. -/
inductive OperationScope where
  /-- Inside a bound organization, for everyone. -/
  | organization
  /-- For any known caller, with or without an organization. -/
  | global
  /-- For system administrators, with or without an organization. -/
  | adminOnly
deriving DecidableEq

namespace OperationScope

def name : OperationScope → String
  | .organization => "organization"
  | .global => "global"
  | .adminOnly => "admin_only"

/-- The name as a heading. -/
def title : OperationScope → String
  | .organization => "Organization"
  | .global => "Global"
  | .adminOnly => "AdminOnly"

def all : List OperationScope := [.organization, .global, .adminOnly]

def ofName? (text : String) : Option OperationScope :=
  all.find? fun scope => scope.name == text

end OperationScope

/-- The precondition of an operation. -/
structure Requirement where
  scope : OperationScope
  /-- The set of roles of which the caller needs one. -/
  roles : Option (List OrgRole)
  minTier : Option Tier
deriving DecidableEq

namespace Requirement

/-- A place, and no further restriction. -/
def within (scope : OperationScope) : Requirement := ⟨scope, none, none⟩

/-- Restricted to a set of roles. -/
def withRoles (requirement : Requirement) (roles : List OrgRole) :
    Requirement :=
  { requirement with roles := some (OrgRole.setOf roles) }

/-- Restricted to a tier and those above it. -/
def withMinTier (requirement : Requirement) (tier : Tier) : Requirement :=
  { requirement with minTier := some tier }

/-- The roles that are allowed by name. -/
def allowedRoles (requirement : Requirement) : List OrgRole :=
  requirement.roles.getD []

def toJson (requirement : Requirement) : Json := Json.object [
  ("scope", .str requirement.scope.name),
  ("roles", Json.ofOption (fun roles => .strs (roles.map OrgRole.name))
    requirement.roles),
  ("min_tier", Json.ofOption (fun t => .str (Tier.name t))
    requirement.minTier)]

end Requirement

end Tenancy
