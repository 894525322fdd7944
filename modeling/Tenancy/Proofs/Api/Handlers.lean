/-
What handlers ask for. The directory is only read until a request makes
the one change that its endpoint is for, and that is its last call: every
call of a request is made in the directory that the request has found
(`AskedIn`), and a request that ends in a refusal leaves the directory
as it has found it. What is asked is fixed by the endpoint, by the
organization that the request is bound to, and by what it spells in its
path and its body (`GuardedEndpoint.Asks`). So there is one statement for
each handler, put together by endpoint in `perform_asks`.
-/
import Tenancy.Api.Service
import Tenancy.Proofs.Access.Admission
import Tenancy.Proofs.Directory.Ownership

namespace Tenancy

open Http Program MemoryDirectory

variable {α β ε τ : Type}

namespace ApiProgram

variable {σ : Type} {directory : Program.World directoryInterface σ}
  {server : Program.World Sql.serverInterface τ}

-- ======================================================= side by side

/-- A program over the directory alone leaves the database alone. -/
theorem run_ofDirectory (p : Program directoryInterface α) (s : σ) (t : τ) :
    (ofDirectory p).run (world directory server) (s, t)
      = ((p.run directory s).1, (p.run directory s).2, t) := by
  induction p generalizing s with
  | done a => rfl
  | ask call next ih => exact ih (directory call s).1 (directory call s).2

/-- A program over the database alone leaves the directory alone. -/
theorem run_ofDatabase (p : Program Sql.serverInterface α) (s : σ) (t : τ) :
    (ofDatabase p).run (world directory server) (s, t)
      = ((p.run server t).1, (s, (p.run server t).2)) := by
  induction p generalizing t with
  | done a => rfl
  | ask call next ih => exact ih (server call t).1 (server call t).2

/-- What a program asks of the directory is asked the same side by side with a
database. -/
theorem abidesBy_ofDirectory {Allowed : σ → DirectoryCall → Prop}
    {Err : ε → σ → Prop}
    {p : Program directoryInterface (Except ε α)} {s : σ} {t : τ}
    (h : AbidesBy directory Allowed Err p s) :
    AbidesBy (world directory server)
      (fun st call => ∃ asked, call = .directory asked ∧ Allowed st.1 asked)
      (fun e st => Err e st.1) (ofDirectory p) (s, t) := by
  induction p generalizing s with
  | done result =>
    cases result with
    | ok a => trivial
    | error e => exact h
  | ask call next ih => exact ⟨⟨call, rfl, h.1⟩, ih _ h.2⟩

/-- And what a program asks of the database is asked in one directory. -/
theorem abidesBy_ofDatabase (p : Program Sql.serverInterface (Except ε α))
    (s : σ) (t : τ) : AbidesBy (world directory server)
      (fun st call => st.1 = s ∧ ∃ statement, call = .database statement)
      (fun _ st => st.1 = s) (ofDatabase p) (s, t) := by
  induction p generalizing t with
  | done result =>
    cases result with
    | ok a => trivial
    | error e => exact rfl
  | ask call next ih => exact ⟨⟨rfl, call, rfl⟩, ih _ _⟩

end ApiProgram

-- ============================================================== asking

/-- A call of a request that has found a directory: the directory is still as
it was, and of it only this is asked. -/
def AskedIn (d : MemoryDirectory) (Asked : DirectoryCall → Prop)
    (st : MemoryDirectory × τ) : ApiCall → Prop
  | .directory call => st.1 = d ∧ Asked call
  | .database _ => st.1 = d

/-- What is asked without changing anything. -/
def Reading (Asked : DirectoryCall → Prop) (call : DirectoryCall) : Prop :=
  Asked call ∧ call.isChange = false

section

variable (failures : DirectoryCall → Option DatabaseError)
  (server : Program.World Sql.serverInterface τ) (d : MemoryDirectory)

/-- The directory, some of whose calls may fail, beside a database. -/
abbrev sideBySide : Program.World apiInterface (MemoryDirectory × τ) :=
  ApiProgram.world (answerFailing failures) server

/-- A computation asks only this of the directory that it finds, and leaves the
directory as it was unless it succeeds. -/
def AsksOnly (Asked : DirectoryCall → Prop) (p : ExceptT ε ApiProgram α) :
    Prop :=
  ∀ t, AbidesBy (sideBySide failures server) (AskedIn d Asked)
    (fun _ st => st.1 = d) p.run (d, t)

end

section

variable {failures : DirectoryCall → Option DatabaseError}
  {server : Program.World Sql.serverInterface τ} {d : MemoryDirectory}
  {Asked : DirectoryCall → Prop} {p : ExceptT ε ApiProgram α}
    {f : α → ExceptT ε ApiProgram β}

/-- What may be asked may be allowed more widely. -/
theorem AsksOnly.mono {Asked' : DirectoryCall → Prop}
    (h : AsksOnly failures server d Asked p)
    (himp : ∀ call, Asked call → Asked' call) :
    AsksOnly failures server d Asked' p := by
  refine fun t => (h t).mono (fun st call hcall => ?_) fun _ _ herr => herr
  cases call with
  | directory call => exact ⟨hcall.1, himp call hcall.2⟩
  | database statement => exact hcall

/-- A handler that only reads asks for nothing more than that. -/
theorem AsksOnly.ofReading (h : AsksOnly failures server d (Reading Asked) p) :
    AsksOnly failures server d Asked p :=
  h.mono fun _ hcall => hcall.1

/-- What only reads leaves the directory as it is. -/
theorem AsksOnly.leaves (h : AsksOnly failures server d (Reading Asked) p)
    {t : τ} {a : α}
    {st : MemoryDirectory × τ}
    (hp : Succeeds (sideBySide failures server) p (d, t) a st) : st.1 = d := by
  have hfinal := (h t).final (fun call st (hst : st.1 = d) hcall => by
    cases call with
    | directory call =>
      show (answerFailing failures call st.1).2 = d
      rw [answerFailing_of_read hcall.2.2]
      exact hst
    | database statement => exact hst) rfl
  unfold Succeeds at hp
  rw [hp] at hfinal
  exact hfinal

/-- Reading, and then whatever may be asked. -/
theorem AsksOnly.bind (hp : AsksOnly failures server d (Reading Asked) p)
    (hf : ∀ a t t', Succeeds (sideBySide failures server) p (d, t) a (d, t') →
      AsksOnly failures server d Asked (f a)) :
    AsksOnly failures server d Asked (p >>= f) := by
  intro t
  refine AbidesBy.bind (hp.ofReading t) fun a st ha => ?_
  obtain ⟨d', t'⟩ := st
  have hsame : d' = d := hp.leaves ha
  subst hsame
  exact hf a t t' ha t'

/-- What a result is turned into asks for nothing more. -/
theorem AsksOnly.bind_pure {g : α → β}
    (hp : AsksOnly failures server d Asked p) :
    AsksOnly failures server d Asked (p >>= fun a => pure (g a)) :=
  fun t => AbidesBy.bind (hp t) fun _ _ _ => abidesBy_pure

/-- Either branch keeps to what may be asked. -/
theorem AsksOnly.ite {c : Prop} [Decidable c] {q : ExceptT ε ApiProgram α}
    (hp : c → AsksOnly failures server d Asked p)
    (hq : ¬c → AsksOnly failures server d Asked q) :
    AsksOnly failures server d Asked (if c then p else q) :=
  fun t => AbidesBy.ite (fun hc => hp hc t) (fun hc => hq hc t)

/-- A result asks for nothing. -/
theorem asksOnly_pure {a : α} :
    AsksOnly failures server d Asked (pure a : ExceptT ε ApiProgram α) :=
  fun _ => abidesBy_pure

/-- And neither does a refusal. -/
theorem asksOnly_throw {e : ε} :
    AsksOnly failures server d Asked (throw e : ExceptT ε ApiProgram α) :=
  fun _ => abidesBy_throw rfl

end

namespace Handler

variable {failures : DirectoryCall → Option DatabaseError}
  {server : Program.World Sql.serverInterface τ} {d d' : MemoryDirectory}
    {t t' : τ} {Asked : DirectoryCall → Prop} {st : MemoryDirectory × τ}

-- ============================================================== steps

theorem asksOnly_fail {e : ApiError} :
    AsksOnly failures server d Asked (fail e : Handler α) :=
  asksOnly_throw

/-- Nothing follows a failure. -/
theorem asksOnly_fail_bind {β : Type} {e : ApiError} {f : α → Handler β} :
    AsksOnly failures server d Asked (fail e >>= f) :=
  asksOnly_fail.bind fun _ _ _ h => absurd h not_succeeds_throw

theorem asksOnly_orFail {toError : ε → ApiError} {x : Except ε α} :
    AsksOnly failures server d Asked (orFail toError x) := by
  cases x with
  | ok a => exact asksOnly_pure
  | error e => exact asksOnly_fail

theorem asksOnly_orPanic {x : MayPanic α} :
    AsksOnly failures server d Asked (orPanic x) := by
  cases x with
  | returns a => exact asksOnly_pure
  | panics => exact asksOnly_throw

/-- A step that may fail has succeeded only with its result. -/
theorem succeeds_orFail {toError : ε → ApiError} {x : Except ε α} {a : α}
    (h : Succeeds (sideBySide failures server) (orFail toError x) (d, t) a
      st) : x = .ok a := by
  cases x with
  | ok b =>
    obtain ⟨rfl, -⟩ := succeeds_pure.1 h
    rfl
  | error e => exact absurd h not_succeeds_throw

theorem asksOnly_require {e : ApiError} {x : Option α} :
    AsksOnly failures server d Asked (require e x) := by
  cases x with
  | some a => exact asksOnly_pure
  | none => exact asksOnly_fail

/-- The segment of the path spells the identifier. -/
def SpellsId (segment : String) (id : Uuid) : Prop :=
  (Text.readPercentEncoded? segment).bind Uuid.ofString? = some id

theorem asksOnly_pathId {segment : String} :
    AsksOnly failures server d Asked (pathId segment) := by
  unfold pathId
  split
  · exact asksOnly_pure
  · exact asksOnly_throw

/-- An identifier is taken from the path as it is spelled there. -/
theorem succeeds_pathId {segment : String} {id : Uuid}
    (h : Succeeds (sideBySide failures server) (pathId segment) (d, t) id st) :
    SpellsId segment id := by
  unfold pathId at h
  split at h
  · rename_i hid
    obtain ⟨rfl, -⟩ := succeeds_pure.1 h
    exact hid
  · exact absurd h not_succeeds_throw

/-- The body of the request is JSON of a shape, and this is what it says. -/
def Given {σ : Type} (shape : Json.Shape σ α) (request : Request) (a : α) :
    Prop :=
  request.hasJson = true ∧ request.body.utf8ByteSize ≤ maxBodySize
    ∧ ∃ rest, shape.read (Text.octets request.body) = .ok (a, rest)

theorem asksOnly_body {σ : Type} {shape : Json.Shape σ α} {request : Request} :
    AsksOnly failures server d Asked (body shape request) := by
  unfold body
  refine AsksOnly.ite (fun _ => asksOnly_throw) fun _ => ?_
  refine AsksOnly.ite (fun _ => asksOnly_throw) fun _ => ?_
  split
  · exact asksOnly_pure
  · exact asksOnly_throw
  · exact asksOnly_throw

/-- A body is taken as it is read from the request. -/
theorem succeeds_body {σ : Type} {shape : Json.Shape σ α} {request : Request}
    {a : α}
    (h : Succeeds (sideBySide failures server) (body shape request) (d, t)
      a st) :
    Given shape request a := by
  unfold body at h
  by_cases hjson : (!request.hasJson) = true
  · rw [if_pos hjson] at h
    exact absurd h not_succeeds_throw
  rw [if_neg hjson] at h
  by_cases hlarge : request.body.utf8ByteSize > maxBodySize
  · rw [if_pos hlarge] at h
    exact absurd h not_succeeds_throw
  rw [if_neg hlarge] at h
  split at h
  · rename_i rest hread
    obtain ⟨rfl, -⟩ := succeeds_pure.1 h
    exact ⟨by simpa using hjson, by omega, rest, hread⟩
  · exact absurd h not_succeeds_throw
  · exact absurd h not_succeeds_throw

/-- A call of the directory leaves the database alone. -/
theorem sideBySide_directory {call : DirectoryCall} {answer : call.Answer}
    (h : answerFailing failures call d = (answer, d')) :
    sideBySide failures server (.directory call) (d, t)
      = (answer, (d', t)) := by
  show ((answerFailing failures call d).1,
      ((answerFailing failures call d).2, t)) = _
  rw [h]
  rfl

/-- A call may be asked if it is one of those that may. -/
theorem asksOnly_ask {call : DirectoryCall} (hcall : Asked call) :
    AsksOnly failures server d Asked (ask call) := by
  refine fun t => ⟨⟨rfl, hcall⟩, ?_⟩
  cases hanswer : answerFailing failures call d with
  | mk answer d' =>
    rw [sideBySide_directory hanswer]
    cases answer with
    | ok a => trivial
    | error e => exact answerFailing_of_error hanswer

/-- What is asked is answered by the directory, failures apart. -/
theorem succeeds_ask {call : DirectoryCall} {a : call.Result}
    (h : Succeeds (sideBySide failures server) (ask call) (d, t) a (d', t')) :
    answerFailing failures call d = (.ok a, d') := by
  cases hanswer : answerFailing failures call d with
  | mk answer d₁ =>
    have hnext : sideBySide failures server (.directory call) (d, t)
        = (answer, (d₁, t)) :=
      sideBySide_directory hanswer
    have hcall : (Program.call (I := apiInterface) (.directory call)).run
        (sideBySide failures server) (d, t) = (answer, (d₁, t)) := hnext
    unfold Succeeds ask at h
    rw [ExceptT.run_mk, run_bind, hcall] at h
    cases answer with
    | ok b =>
      cases h
      rfl
    | error e => cases h

/-- A query of the database asks nothing of the directory. -/
theorem asksOnly_query {program : Sql.SqlProgram DatabaseError α} :
    AsksOnly failures server d Asked (query program) := by
  intro t
  have hdatabase : AbidesBy (sideBySide failures server) _ _
      (ApiProgram.ofDatabase (ExceptT.run program)) (d, t) :=
    ApiProgram.abidesBy_ofDatabase _ d t
  have hasked : AbidesBy _ (AskedIn d Asked) _ _ _ :=
    hdatabase.mono (fun st call hcall => by
    obtain ⟨hsame, statement, rfl⟩ := hcall
    exact hsame) fun _ _ herr => herr
  exact hasked.recast (fun _ _ _ => trivial) fun _ _ herr => herr

end Handler

-- ============================================================ changes

namespace MemoryDirectory

variable {failures : DirectoryCall → Option DatabaseError}
  {d d' : MemoryDirectory} {organizationId userId : Uuid} {role : OrgRole}

/-- A change of role that is answered is the one that the directory makes. -/
theorem changeRole_of_answer {change : RoleChange}
    (h : answerFailing failures (.setMemberRole organizationId userId role) d
      = (.ok change, d')) :
    d.changeRole organizationId userId role = (change, d') := by
  have hanswer := answer_of_answerFailing h
  have hchange : (d.changeRole organizationId userId role).1 = change :=
    Except.ok.inj (congrArg Prod.fst hanswer)
  have hstate : (d.changeRole organizationId userId role).2 = d' :=
    congrArg Prod.snd hanswer
  rw [← hchange, ← hstate]

/-- A change of tier that is answered tells whether the organization is
known. -/
theorem setTier_of_answer {id : Uuid} {tier : Tier} {isKnown : Bool}
    (h : answerFailing failures (.setOrganizationTier id tier) d
      = (.ok isKnown, d')) :
    (d.organization? id).isSome = isKnown ∧ d.setTier id tier = d' := by
  have hanswer := answer_of_answerFailing h
  exact ⟨Except.ok.inj (congrArg Prod.fst hanswer), congrArg Prod.snd hanswer⟩

/-- A role change that is not reported as made is not made. -/
theorem eq_of_changeRole {change : RoleChange}
    (h : d.changeRole organizationId userId role = (change, d'))
    (hnot : ∀ previous, change ≠ .updated previous) : d' = d := by
  unfold changeRole at h
  split at h
  · cases h
    rfl
  · split at h
    · cases h
      rfl
    · cases h
      exact absurd rfl (hnot _)

/-- The tier of an organization that is not there is not changed. -/
theorem setTier_of_none {id : Uuid} {tier : Tier}
    (h : d.organization? id = none) : d.setTier id tier = d := by
  unfold setTier
  rw [changeFirst_of_forall_not (List.find?_eq_none.1 h)]

end MemoryDirectory

-- =========================================================== handlers

open Handler

/-- What the handler of an endpoint asks of the directory. -/
def GuardedEndpoint.Asks (ctx : RequestContext) (request : Request) :
    GuardedEndpoint → DirectoryCall → Prop
  | .organization, call =>
    ∃ bound,
      ctx.organization = some bound
      ∧ call = .findOrganization bound.organizationId
  | .members, call =>
    ∃ bound,
      ctx.organization = some bound ∧ call = .listMembers bound.organizationId
  | .memberRole segment, call =>
    ∃ bound, ctx.organization = some bound
      ∧ (call = .listMembers bound.organizationId
        ∨ ∃ userId role, SpellsId segment userId ∧ Given Body.role request role
          ∧ call = .setMemberRole bound.organizationId userId role)
  | .organizations, call => call = .listOrganizations
  | .organizationTier segment, call =>
    ∃ id tier, SpellsId segment id ∧ Given Body.tier request tier
      ∧ call = .setOrganizationTier id tier
  | .whoami, _ | .scopePreview, _ | .findProjects, _ | .project _, _ => False

section

variable {failures : DirectoryCall → Option DatabaseError}
  {server : Program.World Sql.serverInterface τ} {d : MemoryDirectory}
    {ctx : RequestContext}
  {request : Request} {service : Service} {segment : String}

/-- The organization is read, and nothing else. -/
theorem organization_asks :
    AsksOnly failures server d (GuardedEndpoint.organization.Asks ctx request)
      (Handler.organization ctx) := by
  refine asksOnly_orFail.bind fun bound _ _ hbound => ?_
  have hbound := requireOrganization_eq_ok.1 (succeeds_orFail hbound)
  refine AsksOnly.bind (asksOnly_ask ⟨⟨bound, hbound, rfl⟩, rfl⟩)
    fun found _ _ _ => ?_
  exact asksOnly_require.bind fun _ _ _ _ => asksOnly_pure

/-- The list of members is read, and nothing else. -/
theorem members_asks :
    AsksOnly failures server d (GuardedEndpoint.members.Asks ctx request)
      (Handler.members ctx) := by
  refine asksOnly_orFail.bind fun bound _ _ hbound => ?_
  have hbound := requireOrganization_eq_ok.1 (succeeds_orFail hbound)
  exact AsksOnly.bind (asksOnly_ask ⟨⟨bound, hbound, rfl⟩, rfl⟩)
    fun members _ _ _ => asksOnly_pure

/-- The change of a role is the last call, and is made or refused there. -/
theorem changeRole_asks {userId : Uuid} {role : OrgRole}
    (hid : SpellsId segment userId) (hrole : Given Body.role request role) :
    AsksOnly failures server d
      ((GuardedEndpoint.memberRole segment).Asks ctx request)
      (changeRole ctx userId role) := by
  refine asksOnly_orFail.bind fun bound _ _ hbound => ?_
  have hbound := requireOrganization_eq_ok.1 (succeeds_orFail hbound)
  refine AsksOnly.bind (asksOnly_ask ⟨⟨bound, hbound, .inl rfl⟩, rfl⟩)
    fun members _ _ _ => ?_
  refine asksOnly_require.bind
    fun target _ _ _ => AsksOnly.ite (fun _ => ?_) (fun _ => ?_)
  · exact asksOnly_fail_bind
  · intro t
    refine AbidesBy.bind
      (asksOnly_ask ⟨bound, hbound, .inr ⟨userId, role, hid, hrole, rfl⟩⟩ t)
      fun change st hchange => ?_
    obtain ⟨d', t'⟩ := st
    have hmade := changeRole_of_answer (succeeds_ask hchange)
    cases change with
    | updated previous => exact abidesBy_pure
    | notMember => exact eq_of_changeRole hmade nofun
    | lastOwner => exact eq_of_changeRole hmade nofun

/-- Members are read, and then the one role may be changed. -/
theorem memberRole_asks :
    AsksOnly failures server d
      ((GuardedEndpoint.memberRole segment).Asks ctx request)
      (Handler.memberRole ctx segment request) := by
  refine asksOnly_pathId.bind fun userId _ _ hid => ?_
  refine asksOnly_body.bind fun role _ _ hrole => ?_
  exact (changeRole_asks (succeeds_pathId hid) (succeeds_body hrole)).bind_pure

/-- A preview of a scope asks nothing of the directory. -/
theorem scopePreview_asks {facilities : Facilities}
    {Asked : DirectoryCall → Prop} :
    AsksOnly failures server d Asked
      (Handler.scopePreview facilities ctx request) := by
  refine asksOnly_body.bind fun given _ _ _ => asksOnly_require.bind
    fun entity _ _ _ => ?_
  refine asksOnly_orFail.bind fun scope _ _ _ => asksOnly_orFail.bind
    fun query _ _ _ => ?_
  exact asksOnly_orFail.bind fun statement _ _ _ => asksOnly_pure

theorem asksOnly_projects {facilities : Facilities}
    {Asked : DirectoryCall → Prop} :
    AsksOnly failures server d Asked (Handler.projects facilities) := by
  unfold Handler.projects
  exact AsksOnly.ite (fun _ => asksOnly_pure) (fun _ => asksOnly_fail)

/-- Projects are found in the database alone. -/
theorem findProjects_asks {facilities : Facilities}
    {Asked : DirectoryCall → Prop} :
    AsksOnly failures server d Asked
      (Handler.findProjects facilities ctx request) := by
  refine asksOnly_body.bind
    fun data _ _ _ => AsksOnly.ite (fun _ => asksOnly_fail_bind) fun _ => ?_
  refine asksOnly_orFail.bind fun scope _ _ _ => asksOnly_projects.bind
    fun repository _ _ _ => ?_
  refine asksOnly_query.bind fun total _ _ _ => asksOnly_query.bind
    fun items _ _ _ => ?_
  exact asksOnly_pure

/-- So is a single project. -/
theorem project_asks {facilities : Facilities} {Asked : DirectoryCall → Prop} :
    AsksOnly failures server d Asked
      (Handler.project facilities ctx segment) := by
  refine asksOnly_pathId.bind fun id _ _ _ => asksOnly_orFail.bind
    fun scope _ _ _ => ?_
  refine asksOnly_projects.bind fun repository _ _ _ => ?_
  exact asksOnly_query.bind_pure

/-- The list of organizations is read, and nothing else. -/
theorem organizations_asks :
    AsksOnly failures server d (GuardedEndpoint.organizations.Asks ctx request)
      Handler.organizations :=
  AsksOnly.bind (asksOnly_ask ⟨rfl, rfl⟩) fun _ _ _ _ => asksOnly_pure

/-- The change of a tier is the last call, and nothing is changed where there
is no such organization. -/
theorem organizationTier_asks :
    AsksOnly failures server d
      ((GuardedEndpoint.organizationTier segment).Asks ctx request)
      (Handler.organizationTier segment request) := by
  refine asksOnly_pathId.bind fun id _ _ hid => asksOnly_body.bind
    fun tier _ _ htier => ?_
  intro t
  refine AbidesBy.bind
    (asksOnly_ask ⟨id, tier, succeeds_pathId hid, succeeds_body htier, rfl⟩ t)
      fun isKnown st hknown => ?_
  obtain ⟨d', t'⟩ := st
  obtain ⟨hfound, hset⟩ := setTier_of_answer (succeeds_ask hknown)
  cases isKnown with
  | true => exact abidesBy_pure
  | false =>
    rw [setTier_of_none (by simpa using hfound)] at hset
    exact hset.symm

/-- What an authorized request asks is what its endpoint asks. -/
theorem perform_asks (endpoint : GuardedEndpoint) :
    AsksOnly failures server d (endpoint.Asks ctx request)
      (service.perform endpoint ctx request) := by
  cases endpoint with
  | whoami => exact asksOnly_pure
  | organization => exact organization_asks
  | members => exact members_asks
  | memberRole segment => exact memberRole_asks
  | scopePreview => exact scopePreview_asks
  | findProjects => exact findProjects_asks
  | project segment => exact project_asks
  | organizations => exact organizations_asks
  | organizationTier segment => exact organizationTier_asks

end

end Tenancy
