/-
What a regular user can learn from the service. Whatever a request of the
user asks of the directory is about what the user may see
(`Service.visible_of_asks`): authorization looks for the user that the
token names, and for that user's memberships; the organization that a
handler asks about has been bound by one of them; and only a system
administrator gets past the guard of what is for system administrators.

So two directories that are alike to the user answer every call of the
request alike, and are left alike (`turn_alike`). Behind one request
stands the next, and whatever the user sends, in whatever order, the
responses tell nothing about anybody else's organizations and people
(`other_tenants_are_unobservable`).
-/
import Tenancy.Proofs.Api.Requests
import Tenancy.Proofs.Directory.Alike
import Tenancy.Sql.Script

namespace Tenancy

open Http Program MemoryDirectory

variable {τ : Type}

-- ============================================================ regular

/-- If there is a user with the identifier, it is no system administrator. -/
def MemoryDirectory.IsRegular (d : MemoryDirectory) (userId : Uuid) : Prop :=
  ∀ user, d.user? userId = some user → user.systemRole.isSuperAdmin = false

/-- No call touches a user. -/
theorem MemoryDirectory.users_of_answerFailing
    {failures : DirectoryCall → Option DatabaseError}
    (call : DirectoryCall) (d : MemoryDirectory) :
    (answerFailing failures call d).2.users = d.users := by
  unfold answerFailing
  cases failures call with
  | some failure => rfl
  | none =>
    cases call with
    | setMemberRole organizationId userId role =>
      show (d.changeRole organizationId userId role).2.users = d.users
      rcases changeRole_cases d organizationId userId role with
        ⟨hsame, -⟩ | ⟨hset, -⟩
      · rw [hsame]
      · rw [hset]
        rfl
    | _ => rfl

namespace Gate

variable {gate : Gate} {now : Int} {headers : Headers} {query : Option String}
  {requirement : Requirement} {d : MemoryDirectory} {ctx : RequestContext}
    {userId : Uuid} {user : User}

/-- A token names one user. -/
theorem Names.unique {other : Uuid} (h : gate.Names now headers userId)
    (hother : gate.Names now headers other) : other = userId := by
  obtain ⟨text, claims, htext, hclaims, hsubject⟩ := h
  obtain ⟨text', claims', htext', hclaims', hsubject'⟩ := hother
  cases htext.symm.trans htext'
  cases hclaims.symm.trans hclaims'
  rw [← hsubject, ← hsubject']

theorem ActsFor.id_eq (h : gate.ActsFor now headers d user)
    (hnames : gate.Names now headers userId) : user.id = userId :=
  hnames.unique h.1

theorem ActsFor.regular (h : gate.ActsFor now headers d user)
    (hnames : gate.Names now headers userId) (hregular : d.IsRegular userId) :
    user.systemRole.isSuperAdmin = false := by
  rw [← h.id_eq hnames] at hregular
  exact hregular user h.2.1

/-- Authorization asks for what the user may see. -/
theorem visible_of_asks (hnames : gate.Names now headers userId)
    (hregular : d.IsRegular userId)
    {call : DirectoryCall} (h : gate.Asks now headers d call) :
    d.Visible userId call := by
  cases call with
  | findUser id => exact hnames.unique h
  | membershipsFor id =>
    obtain ⟨user, hacts, hid⟩ := h
    rw [← hid]
    exact hacts.id_eq hnames
  | findOrganization id =>
    obtain ⟨user, hacts, hadmin⟩ := h
    rw [hacts.regular hnames hregular] at hadmin
    cases hadmin
  | findUserByEmail | listMembers | listOrganizations | setMemberRole
  | setOrganizationTier => cases h

/-- A regular user works in organizations that the user belongs to. -/
theorem Admits.belongsTo
    (h : gate.Admits now requirement headers query d ctx user)
    (hnames : gate.Names now headers userId) (hregular : d.IsRegular userId)
    {bound : OrganizationContext} (hbound : ctx.organization = some bound) :
    d.BelongsTo userId bound.organizationId := by
  obtain ⟨-, -, -, -, -, -, hrow⟩ := h.bound bound hbound
  rcases hrow with hadmin | ⟨row, hmem, huser, horganization, -⟩
  · rw [h.acts.regular hnames hregular] at hadmin
    cases hadmin
  · rw [h.acts.id_eq hnames] at huser
    exact belongsTo_iff.2 ⟨row, hmem, huser, horganization⟩

end Gate

namespace Service

variable {failures : DirectoryCall → Option DatabaseError}
  {server : Program.World Sql.serverInterface τ} {service : Service}
    {d : MemoryDirectory}
  {now : Int} {endpoint : GuardedEndpoint} {request : Request} {userId : Uuid}

-- ============================================================ visible

/-- Regular users do not get past a guard for system administrators. -/
theorem not_admits_of_adminOnly {operation : String} {ctx : RequestContext}
    {user : User}
    (hscope : service.policies.get? operation = some (.within .adminOnly))
    (hnames : service.gate.Names now request.headers userId)
    (hregular : d.IsRegular userId) :
    ¬service.Admits now operation request d ctx user := by
  intro h
  obtain ⟨requirement, hrequirement, hadmits⟩ := h
  cases hscope.symm.trans hrequirement
  have hadmin := hadmits.isSuperAdmin
  rw [hadmits.acts.regular hnames hregular] at hadmin
  cases hadmin

/-- A request of a regular user asks for what the user may see. -/
theorem visible_of_asks (hpolicies : service.policies = .standard)
    (hnames : service.gate.Names now request.headers userId)
    (hregular : d.IsRegular userId)
    {call : DirectoryCall} (h : service.Asks now endpoint request d call) :
    d.Visible userId call := by
  rcases h with hgate | ⟨ctx, user, hadmits, hcall⟩
  · exact Gate.visible_of_asks hnames hregular hgate
  have hbelongs : ∀ bound, ctx.organization = some bound →
      d.BelongsTo userId bound.organizationId := by
    intro bound hbound
    obtain ⟨requirement, -, hadmits⟩ := hadmits
    exact hadmits.belongsTo hnames hregular hbound
  cases endpoint with
  | organization =>
    obtain ⟨bound, hbound, rfl⟩ := hcall
    exact hbelongs bound hbound
  | members =>
    obtain ⟨bound, hbound, rfl⟩ := hcall
    exact hbelongs bound hbound
  | memberRole segment =>
    obtain ⟨bound, hbound, rfl | ⟨memberId, role, -, -, rfl⟩⟩ := hcall
    · exact hbelongs bound hbound
    · exact hbelongs bound hbound
  | organizations =>
    have hscope : service.policies.get? "admin.organizations.list"
        = some (.within .adminOnly) := by
      rw [hpolicies]
      decide +kernel
    exact absurd hadmits (not_admits_of_adminOnly hscope hnames hregular)
  | organizationTier segment =>
    have hscope : service.policies.get? "admin.organizations.update_tier"
        = some (.within .adminOnly) := by
      rw [hpolicies]
      decide +kernel
    exact absurd hadmits (not_admits_of_adminOnly hscope hnames hregular)
  | whoami | scopePreview | findProjects | project => cases hcall

-- ============================================================== alike

/-- Directories that are alike to a user, with the same database beside
them. -/
def AlikeTo (userId : Uuid) (st st' : MemoryDirectory × τ) : Prop :=
  st.1.AlikeTo userId st'.1 ∧ st.2 = st'.2

variable {st st' : MemoryDirectory × τ} {next : Turn} {turns : List Turn}

/-- What a user may see is answered alike beside the database, too. -/
theorem AlikeTo.answered {call : ApiCall} (h : AlikeTo userId st st')
    (hcall : AskedIn st.1 (st.1.Visible userId) st call) :
    (sideBySide failures server call st).1
      = (sideBySide failures server call st').1
      ∧ AlikeTo userId (sideBySide failures server call st).2
        (sideBySide failures server call st').2 := by
  obtain ⟨d, t⟩ := st
  obtain ⟨e, t'⟩ := st'
  obtain ⟨halike, hserver⟩ := h
  cases hserver
  cases call with
  | directory call =>
    obtain ⟨hanswer, hafter⟩ :
        (answerFailing failures call d).1 = (answerFailing failures call e).1
        ∧ (answerFailing failures call d).2.AlikeTo userId
          (answerFailing failures call e).2 :=
      halike.answered hcall.2
    exact ⟨hanswer, hafter, rfl⟩
  | database statement => exact ⟨rfl, halike, rfl⟩

/-- Behind its guard, an endpoint ends alike for a regular user. -/
theorem serve_alike (hpolicies : service.policies = .standard)
    (hnames : service.gate.Names now request.headers userId)
    (hregular : st.1.IsRegular userId) (halike : AlikeTo userId st st') :
    ((service.serve now endpoint request).run.run
      (sideBySide failures server) st).1
        = ((service.serve now endpoint request).run.run
          (sideBySide failures server) st').1
      ∧ AlikeTo userId
        ((service.serve now endpoint request).run.run
          (sideBySide failures server) st).2
        ((service.serve now endpoint request).run.run
          (sideBySide failures server) st').2 := by
  obtain ⟨d, t⟩ := st
  have hasked : AsksOnly failures server d (d.Visible userId)
      (service.serve now endpoint request) :=
    serve_asks.mono fun _ hcall =>
      visible_of_asks hpolicies hnames hregular hcall
  apply (hasked t).alike _ halike
  intro call st₁ st₂ h hcall
  refine h.answered ?_
  cases call with
  | directory call =>
    obtain ⟨hsame, hvisible⟩ := hcall
    rw [hsame]
    exact ⟨hsame, hvisible⟩
  | database statement => exact rfl

-- ============================================================== turns

/-- The request is for something behind a guard, and the token that it comes
with is this user's. -/
def Turn.IsOf (gate : Gate) (userId : Uuid) (next : Turn) : Prop :=
  (∃ endpoint, Endpoint.ofPath? next.request.path = some (.guarded endpoint))
    ∧ gate.Names next.now.seconds next.request.headers userId

/-- Requests do not touch users. -/
theorem users_of_turn :
    (service.turn server st next).2.1.users = st.1.users := by
  obtain ⟨calls, hcalls⟩ :=
    exists_runFor_eq_run (sideBySide next.failures server)
      (service.handle next.now next.request) st
  unfold turn
  rw [← hcalls]
  refine runFor_of_calls
    (R := fun st st' : MemoryDirectory × τ => st'.1.users = st.1.users)
    (fun _ => rfl) (fun _ _ _ hfirst hrest => hrest.trans hfirst) ?_ _ calls st
  intro call st
  cases call with
  | directory call => exact users_of_answerFailing call st.1
  | database statement => rfl

theorem isRegular_turn (h : st.1.IsRegular userId) :
    (service.turn server st next).2.1.IsRegular userId := by
  intro user huser
  unfold user? at huser
  rw [users_of_turn] at huser
  exact h user huser

/-- One request of a regular user is answered alike, and leaves what is
alike. -/
theorem turn_alike (hpolicies : service.policies = .standard)
    (hnext : next.IsOf service.gate userId) (hregular : st.1.IsRegular userId)
    (halike : AlikeTo userId st st') :
    (service.turn server st next).1 = (service.turn server st' next).1
      ∧ AlikeTo userId (service.turn server st next).2
        (service.turn server st' next).2 := by
  obtain ⟨⟨endpoint, hguarded⟩, hnames⟩ := hnext
  unfold turn
  rcases service.handle_cases next.now next.request with
    ⟨response, hdone⟩ | ⟨reached, finish, hreached, -, -, hhandle⟩
  · rw [hdone]
    exact ⟨rfl, halike⟩
  · cases hguarded.symm.trans hreached
    have hserved : service.answerAt next.now next.request (.guarded endpoint)
        = respond (service.serve next.now.seconds endpoint next.request) := rfl
    obtain ⟨hresult, hafter⟩ : _ ∧ AlikeTo userId
        ((service.serve next.now.seconds endpoint next.request).run.run
          (sideBySide next.failures server) st).2 _ :=
      serve_alike hpolicies hnames hregular halike
    rw [hhandle, hserved, run_bind, run_bind, run_respond, run_respond]
    dsimp only [Program.run]
    rw [hresult]
    exact ⟨rfl, hafter⟩

/-- All that a regular user sends is answered alike. -/
theorem run_alike (hpolicies : service.policies = .standard)
    (hturns : ∀ next ∈ turns, next.IsOf service.gate userId)
    (hregular : st.1.IsRegular userId) (halike : AlikeTo userId st st') :
    service.responses server turns st = service.responses server turns st'
      ∧ AlikeTo userId (service.behind server st turns)
        (service.behind server st' turns) := by
  induction turns generalizing st st' with
  | nil => exact ⟨rfl, halike⟩
  | cons next rest ih =>
    have hnext := hturns next List.mem_cons_self
    have hrest : ∀ other ∈ rest, other.IsOf service.gate userId :=
      fun other hother => hturns other (List.mem_cons_of_mem next hother)
    obtain ⟨hresponse, hafter⟩ := turn_alike hpolicies hnext hregular halike
    obtain ⟨hresponses, hend⟩ := ih hrest (isRegular_turn hregular) hafter
    refine ⟨?_, hend⟩
    unfold responses
    rw [hresponse, hresponses]

/-- Whatever happens elsewhere, the user is answered as if it had not. -/
theorem elsewhere_is_unobservable {d e : MemoryDirectory} {t : τ}
    (hpolicies : service.policies = .standard)
    (hturns : ∀ next ∈ turns, next.IsOf service.gate userId)
    (hregular : d.IsRegular userId) (helsewhere : d.Elsewhere userId e) :
    service.responses server turns (d, t)
      = service.responses server turns (e, t) := by
  have hstates : AlikeTo userId (d, t) (e, t) := ⟨helsewhere.alikeTo, rfl⟩
  exact (run_alike hpolicies hturns hregular hstates).1

/-- Other tenants are unobservable. Let two directories agree on a user who is
no system administrator, on the user's memberships, and for each
organization that these are in, on its record, its rows and the people in
it; let the projects be the same. Then all that the user sends to what is
behind a guard has the same responses, and leaves the same projects and
directories that agree in this sense again. -/
theorem other_tenants_are_unobservable {gate : Gate} {facilities : Facilities}
    {cors : Option Cors}
    {server : Program.World Sql.serverInterface τ} {d e : MemoryDirectory}
    {t : τ} {userId : Uuid}
    {turns : List Turn} (hregular : d.IsRegular userId)
    (halike : d.AlikeTo userId e)
    (hturns : ∀ next ∈ turns, next.IsOf gate userId) :
    let service : Service := ⟨gate, .standard, facilities, cors⟩
    service.responses server turns (d, t)
      = service.responses server turns (e, t)
      ∧ (service.behind server (d, t) turns).1.AlikeTo userId
        (service.behind server (e, t) turns).1
      ∧ (service.behind server (d, t) turns).2
        = (service.behind server (e, t) turns).2 := by
  intro service
  have hstates : AlikeTo userId (d, t) (e, t) := ⟨halike, rfl⟩
  exact run_alike rfl hturns hregular hstates

/-- The user 7 asks for the organization 2, which is not the user's. -/
def strangersTurn : Turn where
  now := ⟨5, 0⟩
  request :=
    ⟨"GET",
      "/api/organization?organization_id=00000000-0000-0000-0000-000000000002",
    [("Authorization", "Bearer " ++ smallToken)], ""⟩
  failures := fun _ => none

/-- Whether the organization is active does not make a difference. -/
theorem strangersTurn_tells_nothing :
    let service : Service :=
  ⟨smallGate, .standard, ⟨smallGate.tokens, none, false⟩, none⟩
    let closed := smallDirectory.setOrganizationActive (.ofNat 2) false
    closed ≠ smallDirectory ∧ smallDirectory.IsRegular (.ofNat 7)
      ∧ smallDirectory.AlikeTo (.ofNat 7) closed
      ∧ strangersTurn.IsOf smallGate (.ofNat 7)
      ∧ service.responses Sql.Script.answer [strangersTurn]
        (smallDirectory, ⟨[], []⟩)
        = service.responses Sql.Script.answer [strangersTurn]
          (closed, ⟨[], []⟩) := by
  intro service closed
  have hregular : smallDirectory.IsRegular (.ofNat 7) := by
    intro user huser
    have hfound : smallDirectory.user? (.ofNat 7) = some smallUser := rfl
    cases hfound.symm.trans huser
    rfl
  have helsewhere : ¬smallDirectory.BelongsTo (.ofNat 7) (.ofNat 2) := by
    unfold BelongsTo
    decide +kernel
  have halike : smallDirectory.AlikeTo (.ofNat 7) closed :=
    (Elsewhere.organizationActive helsewhere).alikeTo
  have hturn : strangersTurn.IsOf smallGate (.ofNat 7) := by
    have hpath : Endpoint.ofPath? strangersTurn.request.path
        = some (.guarded .organization) := by
      decide +kernel
    exact ⟨⟨_, hpath⟩, smallToken, ⟨.ofNat 7, 0, 3600⟩,
      bearerToken?_smallToken _, smallGate_verify,
      rfl⟩
  refine ⟨by decide +kernel, hregular, halike, hturn, ?_⟩
  have hturns : ∀ next ∈ [strangersTurn], next.IsOf smallGate (.ofNat 7) := by
    intro next hnext
    cases List.mem_singleton.1 hnext
    exact hturn
  exact (other_tenants_are_unobservable hregular halike hturns).1

end Service

end Tenancy
