/-
The service: from a request to its response. The path and the method
choose the endpoint, the endpoint's operation the precondition; only an
authorized request reaches a handler, and an operation without a
declared precondition reaches none.

Two things panic: a service whose list of origins cannot be made is not
built, and a login whose token would expire beyond the calendar has no
response.
-/
import Tenancy.Access.Authorize
import Tenancy.Api.Endpoint
import Tenancy.Api.Handlers
import Tenancy.Config
import Tenancy.Http.Cors

namespace Tenancy

open Http

/-- A service as it was configured. -/
structure Service where
  gate : Gate
  policies : Registry
  facilities : Facilities
  /-- None answers pages of no other origin. -/
  cors : Option Cors

namespace Service

/-- The service of a configuration, with the limit cap of the process. -/
def ofConfig (c : Config) (limitCap : Option Int) (policies : Registry)
    (hasDatabase : Bool) : MayPanic Service := do
  let tokens : TokenService :=
    ⟨c.security.jwtSecret, c.security.jwtExpiryHours⟩
  let cors ←
    if c.security.enableCors then
      some <$> Cors.ofEntries c.security.corsOrigins
    else pure none
  return ⟨⟨tokens, c.security.organizationHeader⟩, policies,
    ⟨tokens, limitCap, hasDatabase⟩, cors⟩

/-- What an authorized request to an endpoint does. -/
def perform (service : Service) (endpoint : GuardedEndpoint)
    (ctx : RequestContext) (request : Request) : Handler Json :=
  match endpoint with
  | .whoami => pure (Handler.whoami ctx)
  | .organization => Handler.organization ctx
  | .members => Handler.members ctx
  | .memberRole userId => Handler.memberRole ctx userId request
  | .scopePreview => Handler.scopePreview service.facilities ctx request
  | .findProjects => Handler.findProjects service.facilities ctx request
  | .project id => Handler.project service.facilities ctx id
  | .organizations => Handler.organizations
  | .organizationTier id => Handler.organizationTier id request

/-- The request bound to its caller and organization. -/
def bound (service : Service) (now : Int) (operation : String)
    (request : Request) : Handler RequestContext :=
  match service.policies.get? operation with
  | none => Handler.fail (.internal "Operation is not available")
  | some requirement =>
    let access :=
      service.gate.authorize now requirement request.headers request.query
    ExceptT.mk ((ApiProgram.ofDirectory (ExceptT.run access)).bind fun
      | .ok ctx => .done (.ok ctx)
      | .error (.denied reason) => .done (.error (.failed (.denied reason)))
      | .error (.directory e) => .done (.error (.failed (.ofDatabase e))))

/-- The response that data or a refusal makes. -/
def respond (handler : Handler Json) : ApiProgram (MayPanic Response) :=
  (ExceptT.run handler).bind fun
    | .ok data => .done (.returns (Reply.success 200 data))
    | .error refusal => .done (Reply.ofRefusal refusal)

def answerAt (service : Service) (now : Timestamp) (request : Request) :
    Endpoint → ApiProgram (MayPanic Response)
  | .toAnyone .health =>
    MayPanic.returns <$> Handler.health service.facilities now
  | .toAnyone .login =>
    respond (Handler.login service.facilities now.seconds request)
  | .guarded endpoint => respond do
    let ctx ← service.bound now.seconds endpoint.operation request
    service.perform endpoint ctx request

/-- What a path and a method lead to. -/
def route (service : Service) (now : Timestamp) (request : Request) :
    ApiProgram (MayPanic Response) :=
  match Endpoint.ofPath? request.path with
  | none => .done (.returns (.empty 404))
  | some endpoint =>
    if endpoint.answers request.method then do
      let outcome ← service.answerAt now request endpoint
      return do
        let response ← outcome
        return if request.method = "HEAD" then response.headOnly else response
    else .done (.returns (.empty 405))

def handle (service : Service) (now : Timestamp) (request : Request) :
    ApiProgram (MayPanic Response) :=
  match service.cors with
  | none => service.route now request
  | some cors =>
    if request.method = "OPTIONS" then .done (.returns (cors.options request))
    else do
      let outcome ← service.route now request
      return do
        let response ← outcome
        return response.addHeaders (cors.originHeaders request)

end Service

end Tenancy
