/-
Changes of the directory through the interface. There are two: a system
administrator gives an organization another tier (`ChangesTier`), and
someone who may manage members gives one of them another role
(`ChangesRole`). Whatever else is sent, and whatever is answered with
another status than success, leaves the directory as it was
(`changes_are_authorized`), behind any sequence of requests.

A change is the last call of its request. So it is enough to know what
an endpoint can ask for behind its guard, and what the guard has seen in
the directory that is then changed.
-/
import Tenancy.Proofs.Api.Requests
import Tenancy.Proofs.Text.Pieces

namespace Tenancy

open Http Program MemoryDirectory Handler

variable {α ε τ : Type}

-- ========================================================== directory

namespace MemoryDirectory

variable {d d' : MemoryDirectory} {organizationId userId : Uuid}
  {role : OrgRole} {tier : Tier}

/-- An organization has this tier now, and nothing else has changed. -/
def TierSet (organizationId : Uuid) (tier : Tier) (d d' : MemoryDirectory) :
    Prop :=
  ∃ before o after,
    d.organizations = before ++ o :: after ∧ o.id = organizationId
    ∧ d' = { d with
      organizations := before ++ { o with tier := tier } :: after }

/-- The membership of a user in an organization has this role now, and nothing
else has changed. -/
def RoleSet (organizationId userId : Uuid) (role : OrgRole)
    (d d' : MemoryDirectory) : Prop :=
  ∃ before row after, d.memberships = before ++ row :: after
    ∧ row.organizationId = organizationId ∧ row.userId = userId
    ∧ d' = { d with
      memberships := before ++ { row with role := role } :: after }

theorem tierSet_setTier (d : MemoryDirectory) (organizationId : Uuid)
    (tier : Tier) :
    d.setTier organizationId tier = d
      ∨ TierSet organizationId tier d (d.setTier organizationId tier) := by
  cases hfound : d.organization? organizationId with
  | none => exact .inl (setTier_of_none hfound)
  | some o =>
    obtain ⟨before, after, hsplit, hchange⟩ :=
      changeFirst_of_find? hfound ({ · with tier := tier })
    refine .inr
      ⟨before, o, after, hsplit, by simpa using List.find?_some hfound, ?_⟩
    unfold setTier
    rw [hchange]

theorem roleSet_changeRole (d : MemoryDirectory) (organizationId userId : Uuid)
    (role : OrgRole) :
    (d.changeRole organizationId userId role).2 = d
      ∨ RoleSet organizationId userId role d
        (d.changeRole organizationId userId role).2 := by
  unfold changeRole
  cases hfound : d.membership? organizationId userId with
  | none => exact .inl rfl
  | some row =>
    dsimp only
    split
    · exact .inl rfl
    · obtain ⟨before, after, hsplit, hchange⟩ :=
        changeFirst_of_find? hfound ({ · with role := role })
      obtain ⟨horganization, huser⟩ := ties_iff.1 (ties_of_membership? hfound)
      refine .inr ⟨before, row, after, hsplit, horganization, huser, ?_⟩
      unfold setRole
      rw [hchange]

end MemoryDirectory

/-- A request that has changed the directory has succeeded, and made the one
change that it may ask for. -/
theorem AsksOnly.change {failures : DirectoryCall → Option DatabaseError}
    {server : Program.World Sql.serverInterface τ} {d : MemoryDirectory}
    {Asked : DirectoryCall → Prop} {p : ExceptT ε ApiProgram α}
    (h : AsksOnly failures server d Asked p) (t : τ) :
    (p.run.run (sideBySide failures server) (d, t)).2.1 = d
      ∨ (∃ a, (p.run.run (sideBySide failures server) (d, t)).1 = .ok a)
        ∧ ∃ call, Asked call ∧ call.isChange = true
          ∧ (p.run.run (sideBySide failures server) (d, t)).2.1
            = (answerFailing failures call d).2 := by
  rcases succeeds_or_fails (sideBySide failures server) p (d, t) with
    ⟨a, st, hsucceeds⟩ | ⟨e, st, hfails⟩
  · -- Every call is made in the directory found, so the last change is the
    -- only one.
    have hfinal :=
      (h t).final (fun call st (hst : st.1 = d ∨ ∃ call, Asked call
        ∧ call.isChange = true ∧ st.1 = (answerFailing failures call d).2)
          hcall => by
      cases call with
      | database statement => exact hst
      | directory call =>
        obtain ⟨hsame, hasked⟩ := hcall
        show (answerFailing failures call st.1).2 = d
          ∨ ∃ asked, Asked asked ∧ asked.isChange = true
            ∧ (answerFailing failures call st.1).2
              = (answerFailing failures asked d).2
        rw [hsame]
        cases hchange : call.isChange with
        | false => exact .inl (answerFailing_of_read hchange)
        | true => exact .inr ⟨call, hasked, hchange, rfl⟩) (.inl rfl)
    rcases hfinal with hsame | hchange
    · exact .inl hsame
    · exact .inr ⟨⟨a, congrArg Prod.fst hsucceeds⟩, hchange⟩
  · left
    have hsame : st.1 = d := (h t).failure hfails
    have hrun : (p.run.run (sideBySide failures server) (d, t)).2 = st :=
      congrArg Prod.snd hfails
    rw [hrun, hsame]

-- =============================================================== paths

/-- The segments of the path to an endpoint behind a guard. -/
def GuardedEndpoint.segments : GuardedEndpoint → List String
  | .whoami => ["api", "auth", "whoami"]
  | .organization => ["api", "organization"]
  | .members => ["api", "organization", "members"]
  | .memberRole userId => ["api", "organization", "members", userId, "role"]
  | .scopePreview => ["api", "organization", "scope", "preview"]
  | .findProjects => ["api", "organization", "projects", "find"]
  | .project id => ["api", "organization", "projects", id]
  | .organizations => ["api", "admin", "organizations"]
  | .organizationTier id => ["api", "admin", "organizations", id, "tier"]

/-- An endpoint behind a guard is reached by its segments only. -/
theorem segments_of_guarded {segments : List String}
    {endpoint : GuardedEndpoint}
    (h : Endpoint.ofSegments? segments = some (.guarded endpoint)) :
    segments = endpoint.segments := by
  unfold Endpoint.ofSegments? at h
  split at h
  case h_9 =>
    -- A parameter at the end of a path may not be empty.
    split at h
    · cases h
    · cases h
      rfl
  all_goals
    cases h
    try rfl

theorem path_of_guarded {path : String} {endpoint : GuardedEndpoint}
    (h : Endpoint.ofPath? path = some (.guarded endpoint)) :
    path.toList
      = ['/'].intercalate (("" :: endpoint.segments).map String.toList) := by
  unfold Endpoint.ofPath? at h
  split at h
  · rename_i segments hsplit
    rw [← segments_of_guarded h]
    exact Text.toList_of_splitOn hsplit
  · cases h

theorem path_of_memberRole {path segment : String}
    (h : Endpoint.ofPath? path = some (.guarded (.memberRole segment))) :
    path = "/api/organization/members/" ++ segment ++ "/role" := by
  rw [← String.toList_inj, path_of_guarded h]
  simp [GuardedEndpoint.segments, List.intercalate_cons_cons]

theorem path_of_organizationTier {path segment : String}
    (h : Endpoint.ofPath? path = some (.guarded (.organizationTier segment))) :
    path = "/api/admin/organizations/" ++ segment ++ "/tier" := by
  rw [← String.toList_inj, path_of_guarded h]
  simp [GuardedEndpoint.segments, List.intercalate_cons_cons]

-- ============================================================ changes

/-- A system administrator gives an organization another tier: the path names
the organization, the body the tier. -/
structure ChangesTier (gate : Gate) (now : Int) (request : Request)
    (user : User)
    (organizationId : Uuid) (tier : Tier) (d d' : MemoryDirectory) : Prop where
  method : request.method = "PUT"
  path :
    ∃ segment, request.path = "/api/admin/organizations/" ++ segment ++ "/tier"
    ∧ SpellsId segment organizationId
  body : Given Body.tier request tier
  acts : gate.ActsFor now request.headers d user
  standing : user.systemRole.isSuperAdmin = true
  change : TierSet organizationId tier d d'

/-- Someone who may manage the members of an active organization, at least of
the basic tier, gives one of them another role: the selector names the
organization, the path the member, the body the role. A system
administrator may do so in every active organization. -/
structure ChangesRole (gate : Gate) (now : Int) (request : Request)
    (user : User)
    (o : Organization) (userId : Uuid) (role : OrgRole)
    (d d' : MemoryDirectory) : Prop where
  method : request.method = "PUT"
  path :
    ∃ segment,
    request.path = "/api/organization/members/" ++ segment ++ "/role"
    ∧ SpellsId segment userId
  body : Given Body.role request role
  acts : gate.ActsFor now request.headers d user
  selects : ∃ text,
    organizationSelector? gate.organizationHeader request.headers request.query
      = some text
      ∧ Uuid.ofString? text = some o.id
  active : d.activeOrganization? o.id = some o
  standing : user.systemRole.isSuperAdmin = true
    ∨ (∃ row ∈ d.memberships, row.userId = user.id ∧ row.organizationId = o.id
        ∧ (row.role = .owner ∨ row.role = .admin))
      ∧ Tier.basic.rank ≤ o.tier.rank
  change : RoleSet o.id userId role d d'

namespace Service

variable {failures : DirectoryCall → Option DatabaseError}
  {server : Program.World Sql.serverInterface τ} {d : MemoryDirectory}
    {service : Service}
  {now : Int} {request : Request} {ctx : RequestContext} {user : User}

/-- Behind the guard of the tier's endpoint there are system administrators
only. -/
theorem standing_of_tier (hpolicies : service.policies = .standard)
    (h : service.Admits now "admin.organizations.update_tier" request d ctx
      user) :
    service.gate.ActsFor now request.headers d user
      ∧ user.systemRole.isSuperAdmin = true := by
  obtain ⟨requirement, hrequirement, hadmits⟩ := h
  have hstandard : Registry.standard.get? "admin.organizations.update_tier"
      = some (.within .adminOnly) := by decide +kernel
  rw [hpolicies, hstandard] at hrequirement
  cases hrequirement
  exact ⟨hadmits.acts, hadmits.isSuperAdmin⟩

/-- Behind the guard of the role's endpoint there are system administrators,
and owners and admins of an organization of the basic tier at least. -/
theorem standing_of_role (hpolicies : service.policies = .standard)
    {bound : OrganizationContext} (hbound : ctx.organization = some bound)
    (h : service.Admits now "organization.members.update_role" request d ctx
      user) :
    service.gate.ActsFor now request.headers d user
      ∧ ∃ text o,
        organizationSelector? service.gate.organizationHeader request.headers
          request.query
            = some text
          ∧ Uuid.ofString? text = some o.id ∧ o.id = bound.organizationId
          ∧ d.activeOrganization? o.id = some o
          ∧ (user.systemRole.isSuperAdmin = true
            ∨ (∃ row ∈ d.memberships,
              row.userId = user.id ∧ row.organizationId = o.id
                ∧ (row.role = .owner ∨ row.role = .admin))
              ∧ Tier.basic.rank ≤ o.tier.rank) := by
  obtain ⟨requirement, hrequirement, hadmits⟩ := h
  have hstandard : Registry.standard.get? "organization.members.update_role"
      = some (((Requirement.within .organization).withRoles
        [.owner, .admin]).withMinTier .basic) := by
    decide +kernel
  rw [hpolicies, hstandard] at hrequirement
  cases hrequirement
  obtain ⟨text, o, htext, hid, ho, htier, hrow⟩ := hadmits.bound bound hbound
  have hsame : o.id = bound.organizationId := id_of_activeOrganization? ho
  obtain ⟨-, hroles, htiers⟩ := Guard.evaluate_eq_ok.1 hadmits.passes
  rw [← hsame] at hid ho
  refine ⟨hadmits.acts, text, o, htext, hid, hsame, ho, ?_⟩
  rcases hrow with hadmin | ⟨row, hmem, huser, horganization, hrole⟩
  · exact .inl hadmin
  cases hadmin : user.systemRole.isSuperAdmin with
  | true => exact .inl rfl
  | false =>
    right
    have hregular : ctx.caller.isSuperAdmin = false := by
      rw [hadmits.caller]
      exact hadmin
    obtain ⟨bound', hbound', role, hrole', hallowed⟩ :=
      Guard.checkRole_eq_ok.1 hroles hregular _ rfl
    obtain ⟨bound'', hbound'', hrank⟩ :=
      Guard.checkTier_eq_ok.1 htiers hregular _ rfl
    cases hbound.symm.trans hbound'
    cases hbound.symm.trans hbound''
    cases hrole.symm.trans hrole'
    rw [htier]
    refine ⟨⟨row, hmem, huser, horganization.trans hsame.symm, ?_⟩, hrank⟩
    simpa using OrgRole.mem_setOf.1 hallowed

/-- A change that an endpoint asks for behind its guard is one of the two, or
none at all. -/
theorem changes_of_asks (hpolicies : service.policies = .standard)
    {endpoint : GuardedEndpoint}
    (hpath : Endpoint.ofPath? request.path = some (.guarded endpoint))
    (hanswers : (Endpoint.guarded endpoint).answers request.method = true)
    {call : DirectoryCall}
    (hcall : service.Asks now endpoint request d call)
    (hchange : call.isChange = true) :
    (answerFailing failures call d).2 = d
      ∨ (∃ user id tier, ChangesTier service.gate now request user id tier d
          (answerFailing failures call d).2)
      ∨ ∃ user o userId role,
        ChangesRole service.gate now request user o userId role d
          (answerFailing failures call d).2 := by
  rcases hcall with hread | ⟨ctx, user, hadmits, hcall⟩
  · rw [Gate.isChange_of_asks hread] at hchange
    cases hchange
  cases hfailure : failures call with
  | some e =>
    left
    unfold answerFailing
    rw [hfailure]
  | none =>
    have hanswer : answerFailing failures call d = answer call d := by
      unfold answerFailing
      rw [hfailure]
    rw [hanswer]
    cases endpoint with
    | memberRole segment =>
      obtain ⟨bound, hbound, rfl | ⟨userId, role, hid, hrole, rfl⟩⟩ := hcall
      · cases hchange
      have hmethod : request.method = "PUT" := by
        simpa [Endpoint.answers, Endpoint.method] using hanswers
      obtain ⟨hacts, text, o, htext, hselects, hsame, hactive, hstanding⟩ :=
        standing_of_role hpolicies hbound hadmits
      rcases roleSet_changeRole d bound.organizationId userId role with
        hunchanged | hset
      · exact .inl hunchanged
      · rw [← hsame] at hset
        refine .inr (.inr ⟨user, o, userId, role, hmethod,
          ⟨segment, path_of_memberRole hpath, hid⟩, hrole, hacts,
          ⟨text, htext, hselects⟩, hactive, hstanding, ?_⟩)
        rw [← hsame]
        exact hset
    | organizationTier segment =>
      obtain ⟨id, tier, hid, htier, rfl⟩ := hcall
      have hmethod : request.method = "PUT" := by
        simpa [Endpoint.answers, Endpoint.method] using hanswers
      obtain ⟨hacts, hstanding⟩ := standing_of_tier hpolicies hadmits
      rcases tierSet_setTier d id tier with hunchanged | hset
      · exact .inl hunchanged
      · exact .inr (.inl ⟨user, id, tier, hmethod,
          ⟨segment, path_of_organizationTier hpath, hid⟩, htier, hacts,
          hstanding, hset⟩)
    | organization =>
      obtain ⟨_, _, rfl⟩ := hcall
      cases hchange
    | members =>
      obtain ⟨_, _, rfl⟩ := hcall
      cases hchange
    | organizations =>
      cases hcall
      cases hchange
    | whoami | scopePreview | findProjects | project => cases hcall

-- ========================================================= accounted

variable {st : MemoryDirectory × τ}

theorem credentials_asks :
    AsksOnly failures server d (Reading fun call => call.isChange = false)
      (Handler.credentials request) := by
  refine asksOnly_body.bind fun given _ _ _ => ?_
  refine AsksOnly.bind (asksOnly_ask ⟨⟨rfl, rfl⟩, rfl⟩) fun found _ _ _ => ?_
  exact asksOnly_require.bind fun user _ _ _ =>
    AsksOnly.ite (fun _ => asksOnly_fail_bind) fun _ => asksOnly_pure

/-- A login looks for a user, and does nothing else. -/
theorem login_asks {facilities : Facilities} :
    AsksOnly failures server d (fun call => call.isChange = false)
      (Handler.login facilities now request) :=
  credentials_asks.bind fun _ _ _ _ => asksOnly_orPanic.bind fun _ _ _ _ =>
    asksOnly_orFail.bind fun _ _ _ _ => asksOnly_pure

theorem directory_of_health {facilities : Facilities} {time : Timestamp} :
    ((Handler.health facilities time).run (sideBySide failures server) st).2.1
      = st.1 := by
  unfold Handler.health
  by_cases hnone : (!facilities.hasDatabase) = true
  · rw [if_pos hnone]
    rfl
  · rw [if_neg hnone]
    obtain ⟨d, t⟩ := st
    show ((Program.bind (ApiProgram.ofDatabase _) _).run
        (sideBySide failures server) (d, t)).2.1 = d
    rw [run_bind, ApiProgram.run_ofDatabase]
    split <;> rfl

/-- From one directory to the other, the request has changed nothing, or has
succeeded and made one of the two changes. -/
def Accounted (gate : Gate) (now : Int) (request : Request)
    (d : MemoryDirectory)
    (outcome : MayPanic Response × (MemoryDirectory × τ)) : Prop :=
  outcome.2.1 = d
    ∨ (∃ response, outcome.1 = .returns response ∧ response.status = 200)
    ∧ ((∃ user organizationId tier,
          ChangesTier gate now request user organizationId tier d outcome.2.1)
      ∨ ∃ user o userId role,
        ChangesRole gate now request user o userId role d outcome.2.1)

theorem accounted_respond (hpolicies : service.policies = .standard)
    {endpoint : GuardedEndpoint}
    {t : τ} (hpath : Endpoint.ofPath? request.path = some (.guarded endpoint))
    (hanswers : (Endpoint.guarded endpoint).answers request.method = true) :
    Accounted service.gate now request d
      ((respond (service.serve now endpoint request)).run
        (sideBySide failures server) (d, t)) := by
  rw [run_respond]
  have hasked :
      AsksOnly failures server d (service.Asks now endpoint request d)
        (service.serve now endpoint request) := serve_asks
  rcases hasked.change t with
    hsame | ⟨⟨data, hdata⟩, call, hcall, hchange, hafter⟩
  · exact .inl hsame
  · unfold Accounted
    dsimp only
    rw [hdata, hafter]
    rcases changes_of_asks hpolicies hpath hanswers hcall hchange with
      hsame | hmade
    · exact .inl hsame
    · exact .inr ⟨⟨_, rfl, rfl⟩, hmade⟩

theorem accounted_answerAt (hpolicies : service.policies = .standard)
    {endpoint : Endpoint}
    {time : Timestamp} {t : τ}
    (hpath : Endpoint.ofPath? request.path = some endpoint)
    (hanswers : endpoint.answers request.method = true) :
    Accounted service.gate time.seconds request d
      ((service.answerAt time request endpoint).run
        (sideBySide failures server) (d, t)) := by
  cases endpoint with
  | guarded endpoint => exact accounted_respond hpolicies hpath hanswers
  | toAnyone endpoint =>
    left
    cases endpoint with
    | health =>
      show ((Program.bind _ _).run (sideBySide failures server) (d, t)).2.1 = d
      rw [run_bind]
      exact directory_of_health
    | login =>
      show ((respond _).run (sideBySide failures server) (d, t)).2.1 = d
      rw [run_respond]
      have hasked :
          AsksOnly failures server d (fun call => call.isChange = false)
            (Handler.login service.facilities time.seconds request) :=
        login_asks
      rcases hasked.change t with hsame | ⟨-, call, hcall, hchange, -⟩
      · exact hsame
      · cases hcall.symm.trans hchange

/-- Every change of the directory through the interface is authorized and
minimal. Behind any requests, each with calls that fail while it is
served: if the next one leaves another directory than it has found, it
has succeeded, and either an active system administrator has given one
organization another tier, or someone who may manage the members of the
active organization selected has given one member another role there; and
that is all that is different. -/
theorem changes_are_authorized (gate : Gate) (facilities : Facilities)
    (cors : Option Cors)
    (server : Program.World Sql.serverInterface τ)
    (start : MemoryDirectory × τ) (before : List Turn) (next : Turn) :
    let service : Service := ⟨gate, .standard, facilities, cors⟩
    let st := service.behind server start before
    Accounted gate next.now.seconds next.request st.1
      (service.turn server st next) := by
  intro service st
  unfold turn
  rcases service.handle_cases next.now next.request with
    ⟨response, hdone⟩ | ⟨endpoint, finish, hpath, hanswers, hfinish, hhandle⟩
  · rw [hdone]
    exact .inl rfl
  · rw [hhandle, run_bind]
    have haccounted : Accounted gate next.now.seconds next.request st.1
        ((service.answerAt next.now next.request endpoint).run
          (sideBySide next.failures server) st) :=
      accounted_answerAt rfl hpath hanswers
    -- finishing a response does not change its status
    refine haccounted.imp_right (And.imp_left ?_)
    rintro ⟨response, hresponse, hstatus⟩
    refine ⟨finish response, ?_, (hfinish response).trans hstatus⟩
    show finish <$> (Prod.fst (Program.run _ _ _) : MayPanic Response) = _
    rw [hresponse]
    rfl

end Service

end Tenancy
