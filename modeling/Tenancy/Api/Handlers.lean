/-
What the endpoints do. A handler behind a guard is given the bound
request; it asks whether there is an organization, but never again
whether the caller is allowed.

Parts of the path are read before the body, and both before anything is
asked of the directory. A login that fails says the same whatever it
failed at, so that it does not tell which addresses are known.
-/
import Tenancy.Api.Bodies
import Tenancy.Api.Calls
import Tenancy.Crypto.PasswordHash
import Tenancy.Database.Projects
import Tenancy.Http.Request
import Tenancy.Policy.Context
import Tenancy.Text.Percent
import Tenancy.Token.Service

namespace Tenancy

open Http

/-- What handlers go by, besides what they ask for. -/
structure Facilities where
  tokens : TokenService
  /-- The greatest limit a client may ask for. -/
  limitCap : Option Int
  /-- Is there a database to read projects from? -/
  hasDatabase : Bool
deriving DecidableEq

namespace Handler

-- =========================================================== reading

/-- The identifier that a segment of the path spells. -/
def pathId (segment : String) : Handler Uuid :=
  match (Text.readPercentEncoded? segment).bind Uuid.ofString? with
  | some id => pure id
  | none => throw (.rejected .path)

/-- The greatest body that is read, in bytes. -/
def maxBodySize : Nat := 2097152

/-- The body of a request, which must be JSON of a shape; what stands behind
the value does not matter. -/
def body {σ α : Type} (shape : Json.Shape σ α) (request : Request) :
    Handler α :=
  if !request.hasJson then throw (.rejected .contentType)
  else if request.body.utf8ByteSize > maxBodySize then
    throw (.rejected .largeBody)
  else match shape.read (Text.octets request.body) with
    | .ok (a, _) => pure a
    | .error .malformed => throw (.rejected .malformedBody)
    | .error .mismatched => throw (.rejected .mismatchedBody)

def boundOrganization (ctx : RequestContext) : Handler OrganizationContext :=
  orFail .denied ctx.requireOrganization

/-- What the bound request shows of a tenant's rows. -/
def scope (ctx : RequestContext) : Handler TenantScope :=
  orFail .denied (TenantScope.ofRequest ctx)

-- ============================================================ public

/-- Is the service up, and its database, if it has one? -/
def health (facilities : Facilities) (now : Timestamp) :
    ApiProgram Response := do
  let up (database : String) := Reply.success 200 (Json.object [
    ("status", .str "ok"), ("timestamp", .timestamp now),
    ("database", .str database)])
  if !facilities.hasDatabase then return up "not configured"
  let ping : Sql.SqlProgram Sql.Failure Sql.Reply :=
    Sql.SqlProgram.run id ⟨"SELECT 1", []⟩
  match ← ApiProgram.ofDatabase (ExceptT.run ping) with
  | .ok _ => return up "ok"
  | .error _ => return .json 503 (Json.object [
      ("success", .bool false),
      ("error", .str "database unavailable"),
      ("data", Json.object [
        ("status", .str "degraded"), ("timestamp", .timestamp now)])])

/-- Is a password that of a user? A hash that cannot be read is that of no
password. -/
def passwordFits (user : User) (password : String) : Bool :=
  (PasswordHash.ofString? user.passwordHash).any fun hash =>
    hash.verify password

/-- The user whom the address and the password of a login name. -/
def credentials (request : Request) : Handler User := do
  let given ← body Body.login request
  let rejected : ApiError := .unauthorized "Invalid email or password"
  let found : Option User ← ask (.findUserByEmail (Text.trim given.email))
  let user ← require rejected (found.filter fun u => u.isActive)
  if !passwordFits user given.password then fail rejected
  return user

/-- What a login answers. -/
def loginJson (token : String) (seconds : Int) (user : Uuid) : Json :=
  Json.object [
  ("token", .str token),
  ("token_type", .str "Bearer"),
  ("expires_in", .int seconds),
  ("user_id", .uuid user)]

/-- A token for an address and a password. -/
def login (facilities : Facilities) (now : Int) (request : Request) :
    Handler Json := do
  let user ← credentials request
  let issued ← orPanic (facilities.tokens.issue now user.id)
  let token ← orFail (fun _ => .internal "Failed to issue token") issued
  return loginJson token facilities.tokens.expiresIn user.id

-- ====================================================== the caller's own

/-- The caller, and the organization selected, if one is. -/
def whoami (ctx : RequestContext) : Json := Json.object [
  ("id", .uuid ctx.caller.userId),
  ("email", .str ctx.caller.email),
  ("name", .str ctx.caller.name),
  ("system_role", .str ctx.caller.systemRole.name),
  ("memberships", .arr (ctx.caller.memberships.map Membership.toJson)),
  ("organization", Json.ofOption OrganizationContext.toJson ctx.organization)]

/-- The bound organization, the caller's role in it, and what its tier
allows. -/
def organization (ctx : RequestContext) : Handler Json := do
  let bound ← boundOrganization ctx
  let found : Option Organization ←
    ask (.findOrganization bound.organizationId)
  let organization ← require (.notFound "Organization not found") found
  return Json.object [
    ("organization", organization.toJson),
    ("role", Json.ofOption (fun r => .str (OrgRole.name r)) bound.role),
    ("limits", organization.tier.limits.toJson)]

-- ============================================================ members

def members (ctx : RequestContext) : Handler Json := do
  let bound ← boundOrganization ctx
  let members : List Member ← ask (.listMembers bound.organizationId)
  return .arr (members.map Member.toJson)

/-- May a caller grant or revoke ownership of the bound organization? -/
def speaksAsOwner (ctx : RequestContext) (bound : OrganizationContext) :
    Bool :=
  bound.role == some .owner || ctx.caller.isSuperAdmin

/-- Change a member's role in the bound organization. -/
def changeRole (ctx : RequestContext) (userId : Uuid) (role : OrgRole) :
    Handler Member := do
  let bound ← boundOrganization ctx
  let members : List Member ← ask (.listMembers bound.organizationId)
  let target ←
    require (.notFound "Member not found")
      (members.find? fun m => m.userId == userId)
  if (role = .owner ∨ target.role = .owner) ∧ !speaksAsOwner ctx bound then
    fail (.forbidden "Only an owner can grant or revoke the owner role")
  let change : RoleChange ←
    ask (.setMemberRole bound.organizationId userId role)
  match change with
  | .updated _ => return { target with role := role }
  | .notMember => fail (.notFound "Member not found")
  | .lastOwner =>
    fail (.conflict "An organization must keep at least one owner")

def memberRole (ctx : RequestContext) (segment : String) (request : Request) :
    Handler Json := do
  let userId ← pathId segment
  let role ← body Body.role request
  return (← changeRole ctx userId role).toJson

-- ===================================================== tenants' rows

/-- The statement that a filter over an entity would run. -/
def scopePreview (facilities : Facilities) (ctx : RequestContext)
    (request : Request) : Handler Json := do
  let given ← body Body.preview request
  let entity ←
    require (.badRequest ("Unknown entity '" ++ given.entity ++ "'"))
      (Entity.lookup? given.entity)
  let scope ← scope ctx
  let query ← orFail .ofDatabase
    (ScopedQuery.withFilter facilities.limitCap entity scope.predicate
      given.filter)
  let (sql, params) ← orFail .ofDatabase (query.select none)
  return Json.object [
    ("entity", .str entity.table),
    ("organization_wide", .bool scope.organizationWide),
    ("sql", .str sql),
    ("params", .arr params)]

/-- The projects, if there is a database to read them from. -/
def projects (facilities : Facilities) : Handler Repository :=
  if facilities.hasDatabase then pure ⟨.project, facilities.limitCap⟩
  else fail (.unavailable "Database not configured")

/-- The projects that a filter selects, and how many there are on all pages. -/
def findProjects (facilities : Facilities) (ctx : RequestContext)
    (request : Request) : Handler Json := do
  let data ← body (Body.filter (Json.maxDepth - 1)) request
  if data.select.isSome then
    fail (.badRequest "Column selection is not supported for projects")
  let scope ← scope ctx
  let repository ← projects facilities
  let total ← query (repository.count scope data)
  let items ← query (repository.selectAny scope data)
  return Json.object
    [("items", .arr (items.map Project.toJson)), ("total", .int total)]

def project (facilities : Facilities) (ctx : RequestContext)
    (segment : String) : Handler Json := do
  let id ← pathId segment
  let scope ← scope ctx
  let repository ← projects facilities
  return (← query (repository.selectOne scope id)).toJson

-- ===================================================== administration

def organizations : Handler Json := do
  let organizations : List Organization ← ask .listOrganizations
  return .arr (organizations.map Organization.toJson)

/-- Change an organization's tier, which counts from the next request of
each of its members on. -/
def organizationTier (segment : String) (request : Request) :
    Handler Json := do
  let id ← pathId segment
  let tier ← body Body.tier request
  let isKnown : Bool ← ask (.setOrganizationTier id tier)
  if !isKnown then fail (.notFound "Organization not found")
  return Json.object [
    ("organization_id", .uuid id), ("tier", .str tier.name),
    ("limits", tier.limits.toJson)]

end Handler

end Tenancy
