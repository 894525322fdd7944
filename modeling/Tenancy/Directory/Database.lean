/-
The directory in the database: each call as the statements that answer
it. A column that holds a role or a tier is a text, and one that names
none is reported with the column.

A change of role is a transaction that first locks the organization's
row, so that of two changes in one organization the second sees what the
first has done before it counts the owners.
-/
import Tenancy.Directory.Calls
import Tenancy.Sql.Server

namespace Tenancy.DatabaseDirectory

open Sql

/-- A computation over the database. -/
abbrev Query := SqlProgram DatabaseError

/-- A statement is run, and a failure of it is one of the database. -/
def run (statement : Statement) : Query Reply :=
  SqlProgram.run DatabaseError.sql statement

/-- What a column holds. -/
def column {α : Type} [Decode α] (row : Row) (name : String) : Query α :=
  SqlProgram.check DatabaseError.sql (row.get name)

/-- The role or tier that a column names. -/
def named {α : Type} (ofName? : String → Option α) (row : Row)
    (name : String) : Query α := do
  let text : String ← column row name
  match ofName? text with
  | some a => return a
  | none => throw (.decode name text)

-- ============================================================== rows

/-- The user that a row holds. -/
def user (row : Row) : Query User := do
  return {
    id := ← column row "id"
    email := ← column row "email"
    name := ← column row "name"
    systemRole := ← named SystemRole.ofName? row "system_role"
    passwordHash := ← column row "password_hash"
    isActive := ← column row "is_active"
    createdAt := ← column row "created_at" }

/-- The organization that a row holds. -/
def organization (row : Row) : Query Organization := do
  return {
    id := ← column row "id"
    slug := ← column row "slug"
    name := ← column row "name"
    tier := ← named Tier.ofName? row "tier"
    isActive := ← column row "is_active"
    createdAt := ← column row "created_at" }

/-- The membership that a row holds, with the organization's tier. -/
def membership (row : Row) : Query Membership := do
  return {
    organizationId := ← column row "organization_id"
    organizationSlug := ← column row "slug"
    role := ← named OrgRole.ofName? row "role"
    tier := ← named Tier.ofName? row "tier" }

/-- The member that a row holds. -/
def member (row : Row) : Query Member := do
  return {
    userId := ← column row "user_id"
    email := ← column row "email"
    name := ← column row "name"
    role := ← named OrgRole.ofName? row "role"
    joinedAt := ← column row "joined_at" }

-- ======================================================== statements

/-- The columns of a user. -/
def userColumns : String :=
  "id, email, name, system_role, password_hash, is_active, created_at"

/-- The columns of an organization. -/
def organizationColumns : String :=
  "id, slug, name, tier, is_active, created_at"

/-- The user with an identifier, active or not. -/
def selectUser (id : Uuid) : Statement :=
  ⟨"SELECT " ++ userColumns ++ " FROM users WHERE id = $1", [.uuid id]⟩

/-- The user with an address, whatever the case of its letters. -/
def selectUserByEmail (email : String) : Statement :=
  ⟨"SELECT " ++ userColumns ++ " FROM users WHERE lower(email) = lower($1)",
    [.text (some email)]⟩

/-- A user's memberships in active organizations, the oldest first. -/
def selectMemberships (userId : Uuid) : Statement :=
  ⟨"SELECT m.organization_id, o.slug, m.role, o.tier FROM memberships m "
    ++ "JOIN organizations o ON o.id = m.organization_id "
    ++ "WHERE m.user_id = $1 AND o.is_active = true ORDER BY m.created_at ASC",
    [.uuid userId]⟩

/-- The active organization with an identifier. -/
def selectOrganization (id : Uuid) : Statement :=
  ⟨"SELECT " ++ organizationColumns
    ++ " FROM organizations WHERE id = $1 AND is_active = true", [.uuid id]⟩

/-- An organization's members, the oldest first. -/
def selectMembers (organizationId : Uuid) : Statement :=
  ⟨"SELECT u.id AS user_id, u.email, u.name, m.role, m.created_at AS "
    ++ "joined_at FROM memberships m JOIN users u ON u.id = m.user_id "
    ++ "WHERE m.organization_id = $1 ORDER BY m.created_at ASC",
    [.uuid organizationId]⟩

/-- All organizations, the oldest first. -/
def selectOrganizations : Statement :=
  ⟨"SELECT " ++ organizationColumns
    ++ " FROM organizations ORDER BY created_at ASC", []⟩

/-- Locks the organization's row until the transaction ends. -/
def lockOrganization (organizationId : Uuid) : Statement :=
  ⟨"SELECT id FROM organizations WHERE id = $1 FOR UPDATE",
    [.uuid organizationId]⟩

/-- A member's role. -/
def selectRole (organizationId userId : Uuid) : Statement :=
  ⟨"SELECT role FROM memberships WHERE organization_id = $1 AND user_id = $2",
    [.uuid organizationId, .uuid userId]⟩

/-- Counts an organization's owners. -/
def countOwners (organizationId : Uuid) : Statement :=
  ⟨"SELECT COUNT(*) FROM memberships WHERE organization_id = $1 "
    ++ "AND role = 'owner'", [.uuid organizationId]⟩

/-- Writes a member's role. -/
def updateRole (organizationId userId : Uuid) (role : OrgRole) : Statement :=
  ⟨"UPDATE memberships SET role = $1 "
    ++ "WHERE organization_id = $2 AND user_id = $3",
    [.text (some role.name), .uuid organizationId, .uuid userId]⟩

/-- Writes an organization's tier, and when that was. -/
def updateTier (organizationId : Uuid) (tier : Tier) : Statement :=
  ⟨"UPDATE organizations SET tier = $1, updated_at = now() WHERE id = $2",
    [.text (some tier.name), .uuid organizationId]⟩

-- ============================================================= calls

/-- The first row of an answer, if there is one, read. -/
def selectFirst {α : Type} (statement : Statement) (read : Row → Query α) :
    Query (Option α) := do
  SqlProgram.firstRow (← run statement) read

/-- Every row of an answer, read. -/
def selectAll {α : Type} (statement : Statement) (read : Row → Query α) :
    Query (List α) := do
  (← run statement).rows.mapM read

/-- What a change of role does once its transaction has begun, and whether
it is to be committed. -/
def changeRole (organizationId userId : Uuid) (role : OrgRole) :
    Query (RoleChange × Bool) := do
  let _ ← run (lockOrganization organizationId)
  let some previous ← selectFirst (selectRole organizationId userId) fun row =>
      named OrgRole.ofName? row "role"
    | return (.notMember, false)
  if previous = .owner ∧ role ≠ .owner then
    let reply ← run (countOwners organizationId)
    let owners : Int ←
      SqlProgram.check DatabaseError.sql (reply.one >>= Row.scalar)
    if owners ≤ 1 then return (.lastOwner, false)
  let _ ← run (updateRole organizationId userId role)
  return (.updated previous, true)

/-- The change of a role in a transaction of its own. -/
def setMemberRole (organizationId userId : Uuid) (role : OrgRole) :
    Query RoleChange :=
  SqlProgram.transaction DatabaseError.sql
    (changeRole organizationId userId role)

/-- The change of a tier: whether there is such an organization. -/
def setOrganizationTier (organizationId : Uuid) (tier : Tier) :
    Query Bool := do
  return decide ((← run (updateTier organizationId tier)).affected > 0)

/-- The statements that answer a call. -/
def answer : (call : DirectoryCall) → Program serverInterface call.Answer
  | .findUser id => selectFirst (selectUser id) user
  | .findUserByEmail email => selectFirst (selectUserByEmail email) user
  | .membershipsFor userId => selectAll (selectMemberships userId) membership
  | .findOrganization id => selectFirst (selectOrganization id) organization
  | .listMembers organizationId =>
    selectAll (selectMembers organizationId) member
  | .listOrganizations => selectAll selectOrganizations organization
  | .setMemberRole organizationId userId role =>
    setMemberRole organizationId userId role
  | .setOrganizationTier organizationId tier =>
    setOrganizationTier organizationId tier

end Tenancy.DatabaseDirectory
