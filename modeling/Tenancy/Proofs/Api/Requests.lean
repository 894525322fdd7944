/-
What requests ask for, and what comes of them. A guarded request asks to
be authorized, and only if it is, for what its endpoint is for
(`serve_asks`). Whatever is to be shown of the directory behind a
request, or of two directories that answer it, follows from what can be
asked.

A request that reaches no endpoint has one response, whatever the
directory, and one that does has the endpoint's, or none where that
panics (`handle_cases`). Requests are served in turns, and each finds
what the ones before it have left (`Service.behind`).
-/
import Tenancy.Proofs.Api.Handlers

namespace Tenancy

open Http Program MemoryDirectory

variable {τ : Type}

-- ============================================================== guard

namespace Service

variable {failures : DirectoryCall → Option DatabaseError}
  {server : Program.World Sql.serverInterface τ} {d : MemoryDirectory}
    {service : Service}
  {now : Int} {operation : String} {endpoint : GuardedEndpoint}
    {ctx : RequestContext}
  {request : Request} {t : τ} {st : MemoryDirectory × τ}

/-- An endpoint behind its guard. -/
def serve (service : Service) (now : Int) (endpoint : GuardedEndpoint)
    (request : Request) : Handler Json := do
  let ctx ← service.bound now endpoint.operation request
  service.perform endpoint ctx request

/-- The directory lets a request through to an operation. -/
def Admits (service : Service) (now : Int) (operation : String)
    (request : Request)
    (d : MemoryDirectory) (ctx : RequestContext) (user : User) : Prop :=
  ∃ requirement, service.policies.get? operation = some requirement
    ∧ service.gate.Admits now requirement request.headers request.query d
      ctx user

/-- What a guarded request asks: to be authorized, and if it is, for its
endpoint. -/
def Asks (service : Service) (now : Int) (endpoint : GuardedEndpoint)
    (request : Request) (d : MemoryDirectory) (call : DirectoryCall) : Prop :=
  service.gate.Asks now request.headers d call
    ∨ ∃ ctx user, service.Admits now endpoint.operation request d ctx user
      ∧ endpoint.Asks ctx request call

theorem bound_asks :
    AsksOnly failures server d (service.gate.Asks now request.headers d)
      (service.bound now operation request) := by
  intro t
  unfold bound
  cases service.policies.get? operation with
  | none => exact Handler.asksOnly_fail t
  | some requirement =>
    have hlooksUp :
        Gate.LooksUp failures (service.gate.Asks now request.headers d) d
          (service.gate.authorize now requirement request.headers
          request.query) :=
      Gate.authorize_asks
    have hlowered : AbidesBy (sideBySide failures server) _ _ _ (d, t) :=
      ApiProgram.abidesBy_ofDirectory hlooksUp
    have hasked :
        AbidesBy _ (AskedIn d (service.gate.Asks now request.headers d)) _
          _ _ :=
      hlowered.mono (fun st call hcall => by
        obtain ⟨asked, rfl, hsame, hasked⟩ := hcall
        exact ⟨hsame, hasked⟩) fun _ _ herr => herr
    refine hasked.recast (fun _ _ _ => trivial) fun e st hsame => ?_
    cases e with
    | denied reason => exact hsame
    | directory e => exact hsame

theorem admitted_of_bound
    (h : Succeeds (sideBySide failures server)
      (service.bound now operation request) (d, t) ctx st) :
    st = (d, t) ∧ ∃ user, service.Admits now operation request d ctx user := by
  unfold Succeeds bound at h
  cases hrequirement : service.policies.get? operation with
  | none =>
    rw [hrequirement] at h
    cases h
  | some requirement =>
    rw [hrequirement] at h
    simp only [ExceptT.run_mk] at h
    rw [run_bind, ApiProgram.run_ofDirectory] at h
    cases hrun : Program.run (answerFailing failures)
        (service.gate.authorize now requirement request.headers
          request.query).run d with
    | mk result d' =>
      rw [hrun] at h
      cases result with
      | ok ctx' =>
        cases h
        obtain ⟨rfl, user, hadmits⟩ := Gate.admitted_of_authorize hrun
        exact ⟨rfl, user, requirement, hrequirement, hadmits⟩
      | error e => cases e <;> cases h

/-- What a guarded request asks, and that it is refused without a trace. -/
theorem serve_asks :
    AsksOnly failures server d (service.Asks now endpoint request d)
      (service.serve now endpoint request) := by
  have hbound : AsksOnly failures server d
      (Reading (service.Asks now endpoint request d))
      (service.bound now endpoint.operation request) :=
    bound_asks.mono fun call hcall => ⟨.inl hcall, Gate.isChange_of_asks hcall⟩
  refine hbound.bind fun ctx _ _ hctx => ?_
  obtain ⟨-, user, hadmits⟩ := admitted_of_bound hctx
  exact (perform_asks endpoint).mono fun call hcall =>
    .inr ⟨ctx, user, hadmits, hcall⟩

-- =========================================================== response

/-- A response is only finished: it may get headers, or lose its body. -/
def Finishes (finish : Response → Response) : Prop :=
  ∀ response, (finish response).status = response.status

theorem route_cases (service : Service) (now : Timestamp) (request : Request) :
    (∃ response, service.route now request = .done (.returns response))
      ∨ ∃ endpoint finish, Endpoint.ofPath? request.path = some endpoint
        ∧ endpoint.answers request.method = true ∧ Finishes finish
        ∧ service.route now request
          = (service.answerAt now request endpoint).bind fun outcome =>
              .done (finish <$> outcome) := by
  unfold route
  cases Endpoint.ofPath? request.path with
  | none => exact .inl ⟨_, rfl⟩
  | some endpoint =>
    by_cases hanswers : endpoint.answers request.method = true
    · refine .inr ⟨endpoint, fun response =>
        if request.method = "HEAD" then response.headOnly
        else response, rfl, hanswers, ?_, ?_⟩
      · intro response
        show (if request.method = "HEAD" then response.headOnly
            else response).status = _
        split <;> rfl
      · simp only [if_pos hanswers]
        rfl
    · simp only [if_neg hanswers]
      exact .inl ⟨_, rfl⟩

/-- What comes of a request is fixed by its path and its method: an endpoint
that answers, whose response is only finished; or one response, whatever
the directory. -/
theorem handle_cases (service : Service) (now : Timestamp)
    (request : Request) :
    (∃ response, service.handle now request = .done (.returns response))
      ∨ ∃ endpoint finish, Endpoint.ofPath? request.path = some endpoint
        ∧ endpoint.answers request.method = true ∧ Finishes finish
        ∧ service.handle now request
          = (service.answerAt now request endpoint).bind fun outcome =>
              .done (finish <$> outcome) := by
  unfold handle
  cases service.cors with
  | none => exact service.route_cases now request
  | some cors =>
    by_cases hoptions : request.method = "OPTIONS"
    · simp only [if_pos hoptions]
      exact .inl ⟨_, rfl⟩
    · simp only [if_neg hoptions]
      rcases service.route_cases now request with
        ⟨response, hroute⟩ | ⟨endpoint, finish, hpath, hanswers, hfinish,
          hroute⟩
      · rw [hroute]
        exact .inl ⟨_, rfl⟩
      · rw [hroute]
        refine .inr ⟨endpoint, fun response =>
          (finish response).addHeaders (cors.originHeaders request), hpath,
          hanswers, hfinish, ?_⟩
        show Program.bind (Program.bind _ _) _ = _
        rw [bind_bind]
        refine congrArg _ (funext fun outcome => ?_)
        cases outcome <;> rfl

/-- The response for what a handler ends with. -/
def response : Except Refusal Json → MayPanic Response
  | .ok data => .returns (Reply.success 200 data)
  | .error refusal => Reply.ofRefusal refusal

theorem run_respond {σ : Type} (world : Program.World apiInterface σ)
    (handler : Handler Json) (st : σ) :
    (respond handler).run world st
      = (response (handler.run.run world st).1,
        (handler.run.run world st).2) := by
  unfold respond
  rw [run_bind]
  cases (handler.run.run world st).1 <;> rfl

-- ============================================================== turns

/-- One request, when it comes, and what fails while it is served. -/
structure Turn where
  now : Timestamp
  request : Request
  failures : DirectoryCall → Option DatabaseError

section

variable (service : Service) (server : Program.World Sql.serverInterface τ)
  (st : MemoryDirectory × τ)

/-- The response to one request, if there is one, and what it leaves. -/
def turn (next : Turn) : MayPanic Response × (MemoryDirectory × τ) :=
  (service.handle next.now next.request).run
    (sideBySide next.failures server) st

/-- What requests leave that are served one after the other. -/
def behind (turns : List Turn) : MemoryDirectory × τ :=
  turns.foldl (fun st next => (service.turn server st next).2) st

/-- The responses to requests that are served one after the other. -/
def responses : List Turn → MemoryDirectory × τ → List (MayPanic Response)
  | [], _ => []
  | next :: rest, st =>
    (service.turn server st next).1
      :: responses rest (service.turn server st next).2

end

end Service

end Tenancy
