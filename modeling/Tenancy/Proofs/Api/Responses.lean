/-
Requests and the panics of a service. Handlers ask, refuse and go on, and
none of the steps that they are made of panics (`Handler.NeverPanics`),
but for one: a login issues a token, and the token may expire beyond the
calendar. So every request is responded to, whatever the directory and
the database answer, unless it is a login that is given such a token
(`Service.handle_returns`).
-/
import Tenancy.Proofs.Api.Requests

namespace Tenancy

open Http Program

variable {α β ε σ : Type} {world : World apiInterface σ} {st : σ}

namespace Handler

-- =============================================================== steps

/-- However its calls are answered, a handler ends with a result or in a
refusal that can be told. -/
def NeverPanics (p : Handler α) : Prop :=
  ∀ (σ : Type) (world : World apiInterface σ) (st st' : σ),
    ¬Fails world p st .panicked st'

/-- A result is no panic. -/
theorem neverPanics_pure {a : α} : NeverPanics (pure a) :=
  fun _ _ _ _ => not_fails_pure

/-- And neither is a refusal that can be told. -/
theorem neverPanics_throw {e : Refusal} (he : e ≠ .panicked) :
    NeverPanics (throw e : Handler α) :=
  fun _ _ _ _ h => he (fails_throw.1 h).1

theorem neverPanics_fail {e : ApiError} : NeverPanics (fail e : Handler α) :=
  neverPanics_throw nofun

/-- What is made of steps that do not panic does not panic either. -/
theorem NeverPanics.bind {p : Handler α} {f : α → Handler β}
    (hp : NeverPanics p) (hf : ∀ a, NeverPanics (f a)) :
    NeverPanics (p >>= f) := by
  intro σ world st st' h
  rcases fails_bind.1 h with hfirst | ⟨a, st₁, -, hrest⟩
  · exact hp σ world st st' hfirst
  · exact hf a σ world st₁ st' hrest

/-- Either branch is free of panics. -/
theorem NeverPanics.ite {c : Prop} [Decidable c] {p q : Handler α}
    (hp : NeverPanics p) (hq : NeverPanics q) :
    NeverPanics (if c then p else q) := by
  split
  · exact hp
  · exact hq

theorem neverPanics_orFail {toError : ε → ApiError} {x : Except ε α} :
    NeverPanics (orFail toError x) := by
  cases x with
  | ok a => exact neverPanics_pure
  | error e => exact neverPanics_fail

theorem neverPanics_require {e : ApiError} {x : Option α} :
    NeverPanics (require e x) := by
  cases x with
  | some a => exact neverPanics_pure
  | none => exact neverPanics_fail

/-- A panic comes through where it is let through. -/
theorem neverPanics_orPanic {x : MayPanic α} (hx : x ≠ .panics) :
    NeverPanics (orPanic x) := by
  cases x with
  | returns a => exact neverPanics_pure
  | panics => exact absurd rfl hx

/-- Calls are answered by results and by errors. -/
theorem neverPanics_ask {call : DirectoryCall} : NeverPanics (ask call) := by
  intro σ world st st' h
  unfold Fails ask at h
  rw [ExceptT.run_mk, run_bind] at h
  split at h <;> cases h

/-- Statements are answered by replies and by errors. -/
theorem neverPanics_query {program : Sql.SqlProgram DatabaseError α} :
    NeverPanics (query program) := by
  intro σ world st st' h
  unfold Fails query at h
  rw [ExceptT.run_mk, run_bind] at h
  split at h <;> cases h

/-- An identifier that is not one is refused. -/
theorem neverPanics_pathId {segment : String} :
    NeverPanics (pathId segment) := by
  unfold pathId
  split
  · exact neverPanics_pure
  · exact neverPanics_throw nofun

/-- And so is a body that cannot be read. -/
theorem neverPanics_body {τ : Type} {shape : Json.Shape τ α}
    {request : Request} : NeverPanics (body shape request) := by
  unfold body
  refine .ite (neverPanics_throw nofun) ?_
  refine .ite (neverPanics_throw nofun) ?_
  split
  · exact neverPanics_pure
  · exact neverPanics_throw nofun
  · exact neverPanics_throw nofun

-- ============================================================ handlers

variable {ctx : RequestContext} {request : Request}
  {facilities : Facilities} {segment : String}

/-- Every way out of a change of role is told. -/
theorem changeRole_neverPanics {userId : Uuid} {role : OrgRole} :
    NeverPanics (changeRole ctx userId role) := by
  refine neverPanics_orFail.bind fun bound => ?_
  refine neverPanics_ask.bind fun members => ?_
  refine neverPanics_require.bind fun target => ?_
  refine .ite (neverPanics_fail.bind fun _ => ?_) ?_ <;>
  · refine neverPanics_ask.bind fun change => ?_
    cases change with
    | updated previous => exact neverPanics_pure
    | notMember => exact neverPanics_fail
    | lastOwner => exact neverPanics_fail

/-- A scope that cannot be had is a refusal. -/
theorem scopePreview_neverPanics :
    NeverPanics (scopePreview facilities ctx request) := by
  refine neverPanics_body.bind fun given => ?_
  refine neverPanics_require.bind fun entity => ?_
  refine neverPanics_orFail.bind fun scope => ?_
  refine neverPanics_orFail.bind fun query => ?_
  exact neverPanics_orFail.bind fun statement => neverPanics_pure

theorem projects_neverPanics : NeverPanics (projects facilities) :=
  .ite neverPanics_pure neverPanics_fail

/-- Projects are counted and read without a panic. -/
theorem findProjects_neverPanics :
    NeverPanics (findProjects facilities ctx request) := by
  refine neverPanics_body.bind fun data => ?_
  refine .ite (neverPanics_fail.bind fun _ => ?_) ?_ <;>
  · refine neverPanics_orFail.bind fun scope => ?_
    refine projects_neverPanics.bind fun repository => ?_
    refine neverPanics_query.bind fun total => ?_
    exact neverPanics_query.bind fun items => neverPanics_pure

theorem project_neverPanics :
    NeverPanics (project facilities ctx segment) := by
  refine neverPanics_pathId.bind fun id => ?_
  refine neverPanics_orFail.bind fun scope => ?_
  refine projects_neverPanics.bind fun repository => ?_
  exact neverPanics_query.bind fun row => neverPanics_pure

/-- An organization that is not known is a refusal. -/
theorem organizationTier_neverPanics :
    NeverPanics (organizationTier segment request) := by
  refine neverPanics_pathId.bind fun id => ?_
  refine neverPanics_body.bind fun tier => ?_
  refine neverPanics_ask.bind fun isKnown => ?_
  exact .ite (neverPanics_fail.bind fun _ => neverPanics_pure)
    neverPanics_pure

/-- Credentials that are not good are refused. -/
theorem credentials_neverPanics : NeverPanics (credentials request) := by
  refine neverPanics_body.bind fun given => ?_
  refine neverPanics_ask.bind fun found => ?_
  refine neverPanics_require.bind fun user => ?_
  exact .ite (neverPanics_fail.bind fun _ => neverPanics_pure)
    neverPanics_pure

/-- A login panics with the token that it issues. -/
theorem login_neverPanics {now : Int}
    (hissue : ∀ user, facilities.tokens.issue now user ≠ .panics) :
    NeverPanics (login facilities now request) := by
  refine credentials_neverPanics.bind fun user => ?_
  refine (neverPanics_orPanic (hissue user.id)).bind fun issued => ?_
  exact neverPanics_orFail.bind fun token => neverPanics_pure

end Handler

-- ============================================================= service

namespace Service

open Handler

variable {service : Service} {now : Timestamp} {request : Request}

/-- No endpoint behind a guard panics. -/
theorem perform_neverPanics (endpoint : GuardedEndpoint)
    {ctx : RequestContext} :
    NeverPanics (service.perform endpoint ctx request) := by
  cases endpoint with
  | whoami => exact neverPanics_pure
  | organization =>
    refine neverPanics_orFail.bind fun bound => ?_
    refine neverPanics_ask.bind fun found => ?_
    exact neverPanics_require.bind fun organization => neverPanics_pure
  | members =>
    refine neverPanics_orFail.bind fun bound => ?_
    exact neverPanics_ask.bind fun members => neverPanics_pure
  | memberRole segment =>
    refine neverPanics_pathId.bind fun userId => ?_
    refine neverPanics_body.bind fun role => ?_
    exact changeRole_neverPanics.bind fun member => neverPanics_pure
  | scopePreview => exact scopePreview_neverPanics
  | findProjects => exact findProjects_neverPanics
  | project segment => exact project_neverPanics
  | organizations =>
    exact neverPanics_ask.bind fun organizations => neverPanics_pure
  | organizationTier segment => exact organizationTier_neverPanics

/-- Neither does the guard. -/
theorem bound_neverPanics {seconds : Int} {operation : String} :
    NeverPanics (service.bound seconds operation request) := by
  unfold bound
  cases service.policies.get? operation with
  | none => exact neverPanics_fail
  | some requirement =>
    intro σ world st st' h
    unfold Fails at h
    simp only [ExceptT.run_mk] at h
    rw [run_bind] at h
    split at h <;> cases h

/-- What a handler that does not panic ends with has a response. -/
theorem respond_returns {handler : Handler Json}
    (h : NeverPanics handler) :
    ∃ response,
      ((respond handler).run world st).1 = .returns response := by
  rw [run_respond]
  cases hrun : handler.run.run world st with
  | mk result st' =>
    cases result with
    | ok data => exact ⟨_, rfl⟩
    | error refusal =>
      cases refusal with
      | panicked => exact absurd hrun (h σ world st st')
      | rejected reason => exact ⟨_, rfl⟩
      | failed e => exact ⟨_, rfl⟩

/-- Every endpoint responds, but for a login whose token would panic. -/
theorem answerAt_returns (world : World apiInterface σ) (st : σ)
    {endpoint : Endpoint}
    (hlogin : endpoint = .toAnyone .login → ∀ user,
      service.facilities.tokens.issue now.seconds user ≠ .panics) :
    ∃ response, ((service.answerAt now request endpoint).run world st).1
      = .returns response := by
  match endpoint with
  | .toAnyone .health =>
    show ∃ response,
      ((Program.bind (Handler.health _ _) _).run world st).1 = _
    rw [run_bind]
    exact ⟨_, rfl⟩
  | .toAnyone .login => exact respond_returns (login_neverPanics (hlogin rfl))
  | .guarded endpoint =>
    exact respond_returns
      (bound_neverPanics.bind fun _ => perform_neverPanics endpoint)

/-- Every request is responded to, unless it is a login whose token would
expire beyond the calendar. -/
theorem handle_returns
    (hlogin : Endpoint.ofPath? request.path = some (.toAnyone .login) →
      ∀ user, service.facilities.tokens.issue now.seconds user ≠ .panics) :
    ∃ response,
      ((service.handle now request).run world st).1 = .returns response := by
  rcases service.handle_cases now request with
    ⟨response, hhandle⟩ | ⟨endpoint, finish, hpath, -, -, hhandle⟩
  · rw [hhandle]
    exact ⟨response, rfl⟩
  · rw [hhandle, run_bind]
    have hanswer : ∃ response, ((service.answerAt now request endpoint).run
        world st).1 = .returns response :=
      answerAt_returns world st fun h => hlogin (h ▸ hpath)
    obtain ⟨response, hresponse⟩ := hanswer
    rw [hresponse]
    exact ⟨finish response, rfl⟩

end Service

end Tenancy
