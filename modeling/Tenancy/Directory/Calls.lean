/-
What is asked of a directory. Nothing asked for is kept: every request
reads roles and tiers anew, so that a change counts from the next request
on. The two changes are made only where they are asked for by name.
-/
import Tenancy.Database.Error
import Tenancy.Directory.Basic
import Tenancy.Program

namespace Tenancy

/-- A call of a directory. -/
inductive DirectoryCall where
  | findUser (id : Uuid)
  /-- The user of an address, whatever the case of its letters. -/
  | findUserByEmail (email : String)
  /-- A user's memberships in active organizations, the earliest first. -/
  | membershipsFor (userId : Uuid)
  /-- An active organization. -/
  | findOrganization (id : Uuid)
  /-- An organization's members, the earliest first. -/
  | listMembers (organizationId : Uuid)
  | listOrganizations
  /-- Change a member's role, unless that left the organization without an
  owner; both as one step. -/
  | setMemberRole (organizationId userId : Uuid) (role : OrgRole)
  /-- Change an organization's tier; is there such an organization? -/
  | setOrganizationTier (organizationId : Uuid) (tier : Tier)
deriving DecidableEq

namespace DirectoryCall

/-- What a call gives when it does not fail. -/
def Result : DirectoryCall → Type
  | .findUser _ | .findUserByEmail _ => Option User
  | .membershipsFor _ => List Membership
  | .findOrganization _ => Option Organization
  | .listMembers _ => List Member
  | .listOrganizations => List Organization
  | .setMemberRole _ _ _ => RoleChange
  | .setOrganizationTier _ _ => Bool

abbrev Answer (call : DirectoryCall) : Type := Except DatabaseError call.Result

/-- Does a call change the directory, where it does not fail? -/
def isChange : DirectoryCall → Bool
  | .setMemberRole _ _ _ | .setOrganizationTier _ _ => true
  | _ => false

def method : DirectoryCall → String
  | .findUser _ => "find_user"
  | .findUserByEmail _ => "find_user_by_email"
  | .membershipsFor _ => "memberships_for"
  | .findOrganization _ => "find_organization"
  | .listMembers _ => "list_members"
  | .listOrganizations => "list_organizations"
  | .setMemberRole _ _ _ => "set_member_role"
  | .setOrganizationTier _ _ => "set_organization_tier"

end DirectoryCall

def directoryInterface : Interface := ⟨DirectoryCall, DirectoryCall.Answer⟩

end Tenancy
