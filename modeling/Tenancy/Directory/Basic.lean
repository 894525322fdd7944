/-
What the directory knows: people, organizations, and the memberships
that tie the two together. A membership is seen from two sides — by its
user with the organization's slug and tier, by its organization with the
user's address and name.
-/
import Tenancy.Json.Scalars
import Tenancy.Role
import Tenancy.Tier

namespace Tenancy

structure User where
  id : Uuid
  email : String
  name : String
  systemRole : SystemRole
  /-- The written form of the password's hash. -/
  passwordHash : String
  isActive : Bool
  createdAt : Timestamp
deriving DecidableEq

/-- A tenant. -/
structure Organization where
  id : Uuid
  slug : String
  name : String
  tier : Tier
  isActive : Bool
  createdAt : Timestamp
deriving DecidableEq

/-- A membership from its user's side. -/
structure Membership where
  organizationId : Uuid
  organizationSlug : String
  role : OrgRole
  /-- The organization's tier at the time of reading. -/
  tier : Tier
deriving DecidableEq

/-- A membership from its organization's side. -/
structure Member where
  userId : Uuid
  email : String
  name : String
  role : OrgRole
  joinedAt : Timestamp
deriving DecidableEq

/-- How an attempt to change a member's role ended. -/
inductive RoleChange where
  | updated (previous : OrgRole)
  | notMember
  /-- Refused: the organization would be left without an owner. -/
  | lastOwner
deriving DecidableEq

-- =========================================================== written

def TierLimits.toJson (limits : TierLimits) : Json := Json.object [
  ("max_members", Json.ofOption .ofNat limits.maxMembers),
  ("max_projects", Json.ofOption .ofNat limits.maxProjects),
  ("storage_mb", Json.ofOption .ofNat limits.storageMb)]

/-- A user as shown, without the password's hash. -/
def User.toJson (user : User) : Json := Json.object [
  ("id", .uuid user.id),
  ("email", .str user.email),
  ("name", .str user.name),
  ("system_role", .str user.systemRole.name),
  ("is_active", .bool user.isActive),
  ("created_at", .timestamp user.createdAt)]

def Organization.toJson (organization : Organization) : Json := Json.object [
  ("id", .uuid organization.id),
  ("slug", .str organization.slug),
  ("name", .str organization.name),
  ("tier", .str organization.tier.name),
  ("is_active", .bool organization.isActive),
  ("created_at", .timestamp organization.createdAt)]

def Membership.toJson (membership : Membership) : Json := Json.object [
  ("organization_id", .uuid membership.organizationId),
  ("organization_slug", .str membership.organizationSlug),
  ("role", .str membership.role.name),
  ("tier", .str membership.tier.name)]

def Member.toJson (member : Member) : Json := Json.object [
  ("user_id", .uuid member.userId),
  ("email", .str member.email),
  ("name", .str member.name),
  ("role", .str member.role.name),
  ("joined_at", .timestamp member.joinedAt)]

end Tenancy
