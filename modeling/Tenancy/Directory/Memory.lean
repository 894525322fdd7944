/-
A directory in memory: users, organizations and membership rows in the
order in which they were added.

It is a hybrid. Lists are given as the directory in the database gives
them: in the order of time, memberships and members by when they were
joined and organizations by when they were made, and of two things of one
time the one added earlier comes first. (A store that only holds things
has no order to give members and organizations in.) Changes are made as
in a store: where a user should have two memberships in one organization,
the role of the first row is changed, and not that of every one.
-/
import Tenancy.Directory.Calls
import Tenancy.Text.Split

namespace Tenancy

/-- One row of memberships. -/
structure MembershipRow where
  userId : Uuid
  organizationId : Uuid
  role : OrgRole
  joinedAt : Timestamp
deriving DecidableEq

/-- Is a row the membership of a user in an organization? -/
def MembershipRow.ties (row : MembershipRow) (organizationId userId : Uuid) :
    Bool :=
  row.organizationId == organizationId && row.userId == userId

/-- Users, organizations and memberships. -/
structure MemoryDirectory where
  users : List User
  organizations : List Organization
  memberships : List MembershipRow
deriving DecidableEq

namespace MemoryDirectory

/-- A directory of nothing. -/
def empty : MemoryDirectory := ⟨[], [], []⟩

/-- Change the first element that passes a test. -/
def changeFirst {α : Type} (test : α → Bool) (change : α → α) : List α → List α
  | [] => []
  | a :: rest =>
    if test a then change a :: rest else a :: changeFirst test change rest

-- =========================================================== reading

/-- The user with an identifier, active or not. -/
def user? (d : MemoryDirectory) (id : Uuid) : Option User :=
  d.users.find? fun u => u.id == id

/-- The organization with an identifier, active or not. -/
def organization? (d : MemoryDirectory) (id : Uuid) : Option Organization :=
  d.organizations.find? fun o => o.id == id

/-- The organization with an identifier, if it is active. -/
def activeOrganization? (d : MemoryDirectory) (id : Uuid) :
    Option Organization :=
  (d.organization? id).filter fun o => o.isActive

/-- The first row that ties a user to an organization. -/
def membership? (d : MemoryDirectory) (organizationId userId : Uuid) :
    Option MembershipRow :=
  d.memberships.find? fun m => m.ties organizationId userId

/-- Membership rows in the order in which people joined. -/
def byTime (rows : List MembershipRow) : List MembershipRow :=
  rows.mergeSort fun a b => a.joinedAt.le b.joinedAt

/-- A row from its user's side, if its organization is active. -/
def userSide? (d : MemoryDirectory) (row : MembershipRow) :
    Option Membership := do
  let o ← d.activeOrganization? row.organizationId
  return ⟨o.id, o.slug, row.role, o.tier⟩

/-- A row from its organization's side, if its user exists. -/
def organizationSide? (d : MemoryDirectory) (row : MembershipRow) :
    Option Member := do
  let u ← d.user? row.userId
  return ⟨u.id, u.email, u.name, row.role, row.joinedAt⟩

/-- A user's memberships in active organizations, by time. -/
def membershipsFor (d : MemoryDirectory) (userId : Uuid) : List Membership :=
  (byTime (d.memberships.filter fun m => m.userId == userId)).filterMap
    d.userSide?

/-- An organization's members, by time. -/
def membersOf (d : MemoryDirectory) (organizationId : Uuid) : List Member :=
  (byTime (d.memberships.filter fun m =>
    m.organizationId == organizationId)).filterMap d.organizationSide?

/-- How many rows of an organization are those of owners. -/
def ownerCount (d : MemoryDirectory) (organizationId : Uuid) : Nat :=
  d.memberships.countP fun m =>
    m.organizationId == organizationId && m.role == .owner

-- ========================================================== changing

/-- Changes the role in the first row that ties a user to an organization. -/
def setRole (d : MemoryDirectory) (organizationId userId : Uuid)
    (role : OrgRole) : MemoryDirectory :=
  { d with
    memberships :=
      changeFirst (·.ties organizationId userId) ({ · with role := role })
        d.memberships }

/-- Change a member's role, unless the member is the last owner and would
no longer be one. -/
def changeRole (d : MemoryDirectory) (organizationId userId : Uuid)
    (role : OrgRole) : RoleChange × MemoryDirectory :=
  match d.membership? organizationId userId with
  | none => (.notMember, d)
  | some row =>
    if row.role = .owner ∧ role ≠ .owner ∧ d.ownerCount organizationId ≤ 1 then
      (.lastOwner, d)
    else (.updated row.role, d.setRole organizationId userId role)

/-- Changes the tier of an organization. -/
def setTier (d : MemoryDirectory) (organizationId : Uuid) (tier : Tier) :
    MemoryDirectory :=
  { d with
    organizations :=
      changeFirst (·.id == organizationId) ({ · with tier := tier })
        d.organizations }

/-- Changes whether a user is active. -/
def setUserActive (d : MemoryDirectory) (id : Uuid) (isActive : Bool) :
    MemoryDirectory :=
  { d with
    users :=
      changeFirst (·.id == id) ({ · with isActive := isActive }) d.users }

/-- Changes whether an organization is active. -/
def setOrganizationActive (d : MemoryDirectory) (id : Uuid) (isActive : Bool) :
    MemoryDirectory :=
  { d with
    organizations :=
      changeFirst (·.id == id) ({ · with isActive := isActive })
        d.organizations }

/-- Adds a user. -/
def addUser (d : MemoryDirectory) (user : User) : MemoryDirectory :=
  { d with users := d.users ++ [user] }

/-- Adds an organization. -/
def addOrganization (d : MemoryDirectory) (organization : Organization) :
    MemoryDirectory :=
  { d with organizations := d.organizations ++ [organization] }

/-- Adds a membership. -/
def addMembership (d : MemoryDirectory) (row : MembershipRow) :
    MemoryDirectory :=
  { d with memberships := d.memberships ++ [row] }

/-- Removes the rows that tie a user to an organization. -/
def removeMembership (d : MemoryDirectory) (organizationId userId : Uuid) :
    MemoryDirectory :=
  { d with
    memberships :=
      d.memberships.filter fun m => !m.ties organizationId userId }

-- ========================================================= answering

/-- How a directory in memory answers; it never fails. -/
def answer : Program.World directoryInterface MemoryDirectory
  | .findUser id, d => (.ok (d.user? id), d)
  | .findUserByEmail email, d =>
    (.ok (d.users.find? fun u => Text.sameIgnoringCase u.email email), d)
  | .membershipsFor userId, d => (.ok (d.membershipsFor userId), d)
  | .findOrganization id, d => (.ok (d.activeOrganization? id), d)
  | .listMembers organizationId, d => (.ok (d.membersOf organizationId), d)
  | .listOrganizations, d =>
    (.ok (d.organizations.mergeSort fun a b => a.createdAt.le b.createdAt), d)
  | .setMemberRole organizationId userId role, d =>
    let (change, d) := d.changeRole organizationId userId role
    (.ok change, d)
  | .setOrganizationTier organizationId tier, d =>
    (.ok (d.organization? organizationId).isSome,
      d.setTier organizationId tier)

/-- How the directory answers while some of its methods fail. -/
def answerFailing (failures : DirectoryCall → Option DatabaseError) :
    Program.World directoryInterface MemoryDirectory := fun call d =>
  match failures call with
  | some e => (.error e, d)
  | none => answer call d

end MemoryDirectory

end Tenancy
