/-
The two kinds of role. The system role is a person's standing in the
whole installation; the organization role is what one membership grants
inside one organization, and says nothing about any other.
-/
namespace Tenancy

/-- A person's standing in the whole installation. -/
inductive SystemRole where
  | member
  | superAdmin
deriving DecidableEq

namespace SystemRole

def name : SystemRole → String
  | .member => "member"
  | .superAdmin => "super_admin"

def all : List SystemRole := [.member, .superAdmin]

def ofName? (text : String) : Option SystemRole :=
  all.find? fun role => role.name == text

def isSuperAdmin : SystemRole → Bool
  | .superAdmin => true
  | .member => false

end SystemRole

/-- What a membership grants inside its organization. -/
inductive OrgRole where
  | owner
  | admin
  | member
  | viewer
deriving DecidableEq

namespace OrgRole

def name : OrgRole → String
  | .owner => "owner"
  | .admin => "admin"
  | .member => "member"
  | .viewer => "viewer"

def all : List OrgRole := [.owner, .admin, .member, .viewer]

def ofName? (text : String) : Option OrgRole :=
  all.find? fun role => role.name == text

/-- The place of a role among all roles. -/
def rank : OrgRole → Nat
  | .owner => 0
  | .admin => 1
  | .member => 2
  | .viewer => 3

theorem ofName?_name (role : OrgRole) : ofName? role.name = some role := by
  cases role <;> decide

/-- A set of roles, as the list of its elements in the order of all roles. -/
def setOf (roles : List OrgRole) : List OrgRole :=
  all.filter (· ∈ roles)

theorem mem_setOf {role : OrgRole} {roles : List OrgRole} :
    role ∈ setOf roles ↔ role ∈ roles := by
  cases role <;> simp [setOf, all]

end OrgRole

end Tenancy
