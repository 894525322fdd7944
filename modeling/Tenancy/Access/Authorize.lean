/-
Authorizing a request, in three steps that each may refuse it: who asks,
in which organization, and whether the operation's precondition holds.

Missing, spoilt and expired tokens, unknown users and users that are no
longer active are all the same refusal. A caller works in an organization
by a membership in it; a system administrator may work in any active
one, or in none. A selector that spells no identifier selects an
organization that nobody is a member of.
-/
import Tenancy.Access.Selector
import Tenancy.Directory.Calls
import Tenancy.Policy.Guard
import Tenancy.Token.Service

namespace Tenancy

open Http

/-- Why a request was not authorized. -/
inductive AccessError where
  | denied (reason : Denial)
  | directory (e : DatabaseError)
deriving DecidableEq

/-- A computation over the directory that may be refused. -/
abbrev AccessProgram := ExceptT AccessError (Program directoryInterface)

namespace AccessProgram

def ask (call : DirectoryCall) : AccessProgram call.Result :=
  ExceptT.mk ((Program.call (I := directoryInterface) call).bind fun answer =>
    .done (answer.mapError .directory))

/-- Refuse unless there is a value. -/
def require {α : Type} (reason : Denial) : Option α → AccessProgram α
  | some a => pure a
  | none => throw (.denied reason)

end AccessProgram

/-- What authorization goes by, besides the directory. -/
structure Gate where
  tokens : TokenService
  /-- The header that selects an organization. -/
  organizationHeader : String
deriving DecidableEq

namespace Gate

open AccessProgram

/-- The caller that a token identifies. -/
def identify (gate : Gate) (now : Int) (token : Option String) :
    AccessProgram Caller := do
  let token ← require .unauthenticated token
  let claims ← require .unauthenticated (gate.tokens.verify now token).toOption
  let user : Option User ← ask (.findUser claims.subject)
  let user ← require .unauthenticated (user.filter fun u => u.isActive)
  let memberships : List Membership ← ask (.membershipsFor user.id)
  return .ofUser user memberships

/-- The organization that a caller selects, if it may be worked in. -/
def enter (caller : Caller) (selector : String) :
    AccessProgram OrganizationContext := do
  let id ← require .organizationMembershipMissing (Uuid.ofString? selector)
  if caller.isSuperAdmin then
    let found : Option Organization ← ask (.findOrganization id)
    let organization ← require .organizationMembershipMissing found
    let membership := caller.membershipIn? organization.id
    return ⟨organization.id, membership.map Membership.role, organization.tier⟩
  else
    return .ofMembership
      (← require .organizationMembershipMissing (caller.membershipIn? id))

/-- The organization that a request is bound to: none, if none is selected
and a system administrator asks. -/
def bind (caller : Caller) (selector : Option String) :
    AccessProgram (Option OrganizationContext) := do
  match selector with
  | some selector => return some (← enter caller selector)
  | none =>
    if caller.isSuperAdmin then return none
    else throw (.denied .organizationContextMissing)

/-- A request authorized for an operation. Operations outside organizations
are bound to one only where one is selected. -/
def authorize (gate : Gate) (now : Int) (requirement : Requirement)
    (headers : Headers)
    (query : Option String) : AccessProgram RequestContext := do
  let caller ← gate.identify now (bearerToken? headers)
  let selector := organizationSelector? gate.organizationHeader headers query
  let organization ←
    if requirement.scope = .organization ∨ selector.isSome then
      bind caller selector
    else pure none
  let ctx : RequestContext := ⟨caller, organization⟩
  match Guard.evaluate ctx requirement with
  | .ok () => return ctx
  | .error reason => throw (.denied reason)

end Gate

end Tenancy
