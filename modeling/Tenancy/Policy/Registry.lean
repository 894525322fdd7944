/-
The registry of operations: each operation's name with its requirement,
in the order of the names. Registering a name again replaces its
requirement. An operation that is not registered is not available to
anyone.
-/
import Tenancy.Policy.Requirement

namespace Tenancy

/-- Requirements by the names of operations, in the order of the names. -/
structure Registry where
  entries : List (String × Requirement)
deriving DecidableEq

namespace Registry

def empty : Registry := ⟨[]⟩

/-- Set the requirement of a name among ordered entries. -/
def insertEntry (operation : String) (requirement : Requirement) :
    List (String × Requirement) → List (String × Requirement)
  | [] => [(operation, requirement)]
  | (name, r) :: rest =>
    if operation = name then (operation, requirement) :: rest
    else if operation < name then (operation, requirement) :: (name, r) :: rest
    else (name, r) :: insertEntry operation requirement rest

def register (registry : Registry) (operation : String)
    (requirement : Requirement) : Registry :=
  ⟨insertEntry operation requirement registry.entries⟩

def get? (registry : Registry) (operation : String) : Option Requirement :=
  (registry.entries.find? fun e => e.1 == operation).map Prod.snd

def size (registry : Registry) : Nat := registry.entries.length

def isEmpty (registry : Registry) : Bool := registry.entries.isEmpty

/-- The operations of the service. -/
def standard : Registry :=
  let own := Requirement.within .organization
  let managers := own.withRoles [.owner, .admin]
  empty
    |>.register "auth.whoami" (.within .global)
    |>.register "organization.show" own
    |>.register "organization.members.list" managers
    |>.register "organization.members.update_role"
      (managers.withMinTier .basic)
    |>.register "organization.scope.preview" (own.withMinTier .professional)
    |>.register "organization.projects.find" own
    |>.register "organization.projects.show" own
    |>.register "admin.organizations.list" (.within .adminOnly)
    |>.register "admin.organizations.update_tier" (.within .adminOnly)

end Registry

end Tenancy
