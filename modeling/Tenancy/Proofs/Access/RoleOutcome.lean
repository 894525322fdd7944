/-
How a request to change a member's role ends, if nothing else changes the
directory meanwhile. It makes two calls, the listing and the write, and
its answer and what becomes of the directory follow from what these two
give (`run_program`). So it does not matter what holds the directory, as
long as it lists the members, in some order, and changes a role like the
directory in memory (`Holds`): the directory in memory itself does, and so
does any server that has the directory's tables, statement by statement.

Where nobody has two memberships in one organization, the member that is
found in the list is the one whose membership is written. The handler's
look at the role and the write's then agree, and the request ends in one
of four ways (`Outcome`), of which one changes one role. The status of the
answer says which it was (`Declared`).
-/
import Tenancy.Api.Service
import Tenancy.Proofs.Access.RoleRequests
import Tenancy.Proofs.Conduct
import Tenancy.Proofs.Directory.Tables

namespace Tenancy

open Http Program

-- =========================================================== programs

namespace Program

variable {I J : Interface} {α σ : Type}

/-- A lowered program runs in a world of the lower kind as the program itself
runs where each call is answered by what it is lowered to. -/
theorem run_lower (f : (c : I.Call) → Program J (I.Answer c))
    (world : World J σ) (p : Program I α) (s : σ) :
    (p.lower f).run world s
      = p.run (fun call s => (f call).run world s) s := by
  induction p generalizing s with
  | done a => rfl
  | ask call next ih =>
    show ((f call).bind fun answer => (next answer).lower f).run world s = _
    rw [run_bind]
    exact ih _ _

end Program

/-- The directory and the rows of tenants, both behind one server. -/
def databaseWorld {σ : Type} (server : World Sql.serverInterface σ) :
    World apiInterface σ
  | .directory call, s => (DatabaseDirectory.answer call).run server s
  | .database statement, s => server statement s

theorem run_toDatabase {α σ : Type} (server : World Sql.serverInterface σ)
    (p : ApiProgram α) (s : σ) :
    p.toDatabase.run server s = p.run (databaseWorld server) s := by
  unfold ApiProgram.toDatabase
  rw [run_lower]
  congr 1
  funext call s
  cases call <;> rfl

-- ============================================================ holding

/-- Between the calls of a request the states of a world hold one directory
each. The world lists its members in some order, and leads from it to the
directory with a change of a role. -/
structure Holds {σ : Type} (world : World apiInterface σ)
    (holds : σ → MemoryDirectory → Prop) : Prop where
  lists : ∀ {s d}, holds s d → ∀ o, ∃ (members : List Member) (s' : σ),
    world (.directory (.listMembers o)) s = (.ok members, s') ∧ holds s' d
      ∧ ∀ m, m ∈ members ↔ d.Lists o m
  changes : ∀ {s d}, holds s d → d.UniqueMemberships → ∀ o u role, ∃ s',
    world (.directory (.setMemberRole o u role)) s
        = (.ok (d.changeRole o u role).1, s')
      ∧ holds s' (d.changeRole o u role).2

variable {σ τ : Type} {d d' : MemoryDirectory} {r : RoleRequest}
  {bound : OrganizationContext}

theorem holds_memory (server : World Sql.serverInterface τ) (t : τ) :
    Holds (ApiProgram.world MemoryDirectory.answer server)
      fun st d => st = (d, t) where
  lists {st d} h o :=
    ⟨d.membersOf o, (d, t), by rw [h]; rfl, rfl,
      fun _ => MemoryDirectory.mem_membersOf⟩
  changes {st d} h _ o u role :=
    ⟨((d.changeRole o u role).2, t), by rw [h]; rfl, rfl⟩

theorem holds_tables {server : World Sql.serverInterface σ}
    {tables : σ → DirectoryTables}
    (hserver : DirectoryTables.Serves server tables) :
    Holds (databaseWorld server) fun s d => tables s = .atRest d where
  lists {s d} h o := by
    obtain ⟨members, hmembers, s', hrun, hs'⟩ :=
      hserver.listMembers (o := o) h
    refine ⟨members, s', hrun, hs', fun m => ?_⟩
    rw [hmembers.mem_iff]
    exact MemoryDirectory.mem_filterMap_organizationSide?
  changes h hunique o u role := hserver.setMemberRole hunique h

-- =========================================================== outcomes

namespace RoleRequest

/-- The member that a request is about. -/
def Targets (r : RoleRequest) (bound : OrganizationContext)
    (d : MemoryDirectory) (target : Member) : Prop :=
  d.Lists bound.organizationId target ∧ target.userId = r.userId

/-- The request grants or revokes ownership, but does not speak as an owner. -/
def Overreaches (r : RoleRequest) (bound : OrganizationContext)
    (target : Member) : Prop :=
  (r.role = .owner ∨ target.role = .owner)
    ∧ bound.role ≠ some .owner ∧ r.ctx.caller.isSuperAdmin = false

/-- The request takes the ownership away from the only owner. -/
def TakesLast (r : RoleRequest) (bound : OrganizationContext)
    (d : MemoryDirectory) (target : Member) : Prop :=
  target.role = .owner ∧ r.role ≠ .owner
    ∧ d.ownerCount bound.organizationId = 1

/-- How a request ends, and the directory that it leaves. -/
inductive Outcome (r : RoleRequest) (bound : OrganizationContext)
    (d : MemoryDirectory) : Except Refusal Member → MemoryDirectory → Prop
  | notListed (h : ∀ target, ¬r.Targets bound d target) :
    Outcome r bound d (.error (.failed (.notFound "Member not found"))) d
  | overreaches {target : Member} (h : r.Targets bound d target)
      (hover : r.Overreaches bound target) :
    Outcome r bound d
      (.error
        (.failed
          (.forbidden "Only an owner can grant or revoke the owner role"))) d
  | takesLast {target : Member} (h : r.Targets bound d target)
      (hmay : ¬r.Overreaches bound target)
      (hlast : r.TakesLast bound d target) :
    Outcome r bound d
      (.error
        (.failed (.conflict "An organization must keep at least one owner"))) d
  | changed {target : Member} (h : r.Targets bound d target)
      (hmay : ¬r.Overreaches bound target)
      (hspares : ¬r.TakesLast bound d target) :
    Outcome r bound d (.ok { target with role := r.role })
      (d.setRole bound.organizationId r.userId r.role)

theorem Targets.unique {target target' : Member}
    (hunique : d.UniqueMemberships)
    (h : r.Targets bound d target) (h' : r.Targets bound d target') :
    target = target' :=
  h.1.unique hunique h'.1 (h.2.trans h'.2.symm)

/-- A request ends in one way. -/
theorem Outcome.unique {result result' : Except Refusal Member}
    {d₁ d₂ : MemoryDirectory}
    (hunique : d.UniqueMemberships) (h : r.Outcome bound d result d₁)
    (h' : r.Outcome bound d result' d₂) : result = result' ∧ d₁ = d₂ := by
  cases h with
  | notListed hnone =>
    cases h' with
    | notListed => exact ⟨rfl, rfl⟩
    | overreaches htarget | takesLast htarget
    | changed htarget => exact absurd htarget (hnone _)
  | overreaches htarget hover =>
    cases h' with
    | notListed hnone => exact absurd htarget (hnone _)
    | overreaches => exact ⟨rfl, rfl⟩
    | takesLast htarget' hmay | changed htarget' hmay =>
      cases htarget.unique hunique htarget'
      exact absurd hover hmay
  | takesLast htarget hmay hlast =>
    cases h' with
    | notListed hnone => exact absurd htarget (hnone _)
    | overreaches htarget' hover =>
      cases htarget.unique hunique htarget'
      exact absurd hover hmay
    | takesLast => exact ⟨rfl, rfl⟩
    | changed htarget' _ hspares =>
      cases htarget.unique hunique htarget'
      exact absurd hlast hspares
  | changed htarget hmay hspares =>
    cases h' with
    | notListed hnone => exact absurd htarget (hnone _)
    | overreaches htarget' hover =>
      cases htarget.unique hunique htarget'
      exact absurd hover hmay
    | takesLast htarget' _ hlast =>
      cases htarget.unique hunique htarget'
      exact absurd hlast hspares
    | changed htarget' =>
      cases htarget.unique hunique htarget'
      exact ⟨rfl, rfl⟩

/-- The handler's look at the role. -/
theorem denied_iff {target : Member} :
    ((r.role = .owner ∨ target.role = .owner)
      ∧ (!Handler.speaksAsOwner r.ctx bound) = true)
      ↔ r.Overreaches bound target := by
  unfold Overreaches Handler.speaksAsOwner
  simp

/-- The write goes by the role of the membership, which is the one listed. -/
theorem changeRole_of_targets {target : Member} (hunique : d.UniqueMemberships)
    (h : r.Targets bound d target) :
    (r.TakesLast bound d target
      ∧ d.changeRole bound.organizationId r.userId r.role = (.lastOwner, d))
      ∨ (¬r.TakesLast bound d target
        ∧ d.changeRole bound.organizationId r.userId r.role
          = (.updated target.role,
            d.setRole bound.organizationId r.userId r.role)) := by
  obtain ⟨hlists, huser⟩ := h
  obtain ⟨row, hrow, hrole⟩ := hlists.membership? hunique
  rw [huser] at hrow
  unfold MemoryDirectory.changeRole
  rw [hrow]
  dsimp only
  rw [hrole]
  by_cases hlast : r.TakesLast bound d target
  · exact .inl ⟨hlast, if_pos ⟨hlast.1, hlast.2.1, hlast.2.2.le⟩⟩
  · refine .inr
      ⟨hlast,
        if_neg fun ⟨howner, hrevokes, hfew⟩ => hlast ⟨howner, hrevokes, ?_⟩⟩
    -- The target's own membership is one of an owner.
    have hpos := MemoryDirectory.ownerCount_pos hrow (hrole.trans howner)
    omega

-- =============================================================== run

theorem succeeds_ask {world : World apiInterface σ} {call : DirectoryCall}
    {a : call.Result}
    {s s' : σ} (h : world (.directory call) s = (.ok a, s')) :
    Succeeds world (Handler.ask call) s a s' := by
  unfold Succeeds Handler.ask
  rw [ExceptT.run_mk, run_bind]
  have hcall : (Program.call (I := apiInterface) (.directory call)).run world s
      = (.ok a, s') := h
  rw [hcall]
  rfl

theorem fails_fail {α : Type} {world : World apiInterface σ} {e : ApiError}
    {s : σ} : Fails world (Handler.fail e : Handler α) s (.failed e) s :=
  fails_throw.2 ⟨rfl, rfl⟩

/-- A step that succeeds is over, and the rest is run where it has led. -/
theorem run_bind_of_succeeds {α β : Type} {world : World apiInterface σ}
    {p : Handler α}
    {f : α → Handler β} {a : α} {s s' : σ} (h : Succeeds world p s a s') :
    (p >>= f).run.run world s = (f a).run.run world s' := by
  unfold Succeeds at h
  rw [run_bind_except, h]

/-- A world that holds a directory lets a request end as declared. -/
theorem run_program {world : World apiInterface σ}
    {holds : σ → MemoryDirectory → Prop} {s : σ}
    (hworld : Holds world holds) (hs : holds s d)
    (hbound : r.ctx.organization = some bound)
    (hunique : d.UniqueMemberships) :
    ∃ result d' s', r.program.run world s = (result, s') ∧ holds s' d'
      ∧ r.Outcome bound d result d' := by
  obtain ⟨members, s₁, hlisted, hs₁, hmembers⟩ :=
    hworld.lists hs bound.organizationId
  obtain ⟨s₂, hwritten, hs₂⟩ :=
    hworld.changes hs₁ hunique bound.organizationId r.userId r.role
  have horganization :
      Succeeds world (Handler.boundOrganization r.ctx) s bound s := by
    unfold Handler.boundOrganization RequestContext.requireOrganization
    rw [hbound]
    exact succeeds_pure.2 ⟨rfl, rfl⟩
  have hfind : ∀ target,
      members.find? (fun m => m.userId == r.userId) = some target
        ↔ r.Targets bound d target :=
    fun target => MemoryDirectory.find?_eq_some_iff hunique hmembers
  -- What follows the listing, on what it gave.
  have hrun : r.program.run world s
      = (Handler.require (.notFound "Member not found")
          (members.find? fun m => m.userId == r.userId) >>= _).run.run
            world s₁ :=
    (run_bind_of_succeeds horganization).trans
      (run_bind_of_succeeds (succeeds_ask hlisted))
  rw [hrun]
  cases hfound : members.find? fun m => m.userId == r.userId with
  | none =>
    refine ⟨_, d, s₁, fails_bind.2 (.inl fails_fail), hs₁,
      .notListed fun target htarget => ?_⟩
    rw [← hfind, hfound] at htarget
    cases htarget
  | some target =>
    have htarget := (hfind target).1 hfound
    have hfirst : Succeeds world
        (Handler.require (.notFound "Member not found") (some target))
        s₁ target s₁ := succeeds_pure.2 ⟨rfl, rfl⟩
    rw [run_bind_of_succeeds hfirst]
    by_cases hover : r.Overreaches bound target
    · refine ⟨_, d, s₁, ?_, hs₁, .overreaches htarget hover⟩
      exact (fails_if_pos (denied_iff.2 hover)).2
        (fails_bind.2 (.inl fails_fail))
    have hmay := fun hdenied => hover (denied_iff.1 hdenied)
    rcases changeRole_of_targets hunique htarget with
      ⟨hlast, hchange⟩ | ⟨hspares, hchange⟩
    · rw [hchange] at hwritten hs₂
      refine ⟨_, d, s₂, (fails_if_neg hmay).2 ?_, hs₂,
        .takesLast htarget hover hlast⟩
      exact fails_bind.2
        (.inr ⟨.lastOwner, s₂, succeeds_ask hwritten, fails_fail⟩)
    · rw [hchange] at hwritten hs₂
      refine ⟨_, _, s₂, (succeeds_if_neg hmay).2 ?_, hs₂,
        .changed htarget hover hspares⟩
      exact succeeds_bind.2
        ⟨_, _, succeeds_ask hwritten, succeeds_pure.2 ⟨rfl, rfl⟩⟩

-- ============================================================= answer

/-- The answer that a client is given. -/
def answer (r : RoleRequest) : ApiProgram (MayPanic Response) :=
  Service.respond do return (← Handler.changeRole r.ctx r.userId r.role).toJson

/-- The response for what a request ends with. -/
def response : Except Refusal Member → MayPanic Response
  | .ok member => .returns (Reply.success 200 member.toJson)
  | .error refusal => Reply.ofRefusal refusal

theorem answer_eq :
    r.answer = r.program.bind fun result => .done (response result) := by
  show Program.bind (Program.bind r.program _) _ = _
  rw [bind_bind]
  congr 1
  funext result
  cases result <;> rfl

theorem run_answer {world : World apiInterface σ} {s s' : σ}
    {result : Except Refusal Member}
    (h : r.program.run world s = (result, s')) :
    r.answer.run world s = (response result, s') := by
  rw [answer_eq, run_bind, h]
  rfl

/-- What a client is told of a request, and what the directory has become. -/
structure Declared (r : RoleRequest) (bound : OrganizationContext)
    (d : MemoryDirectory)
    (response : Response) (d' : MemoryDirectory) : Prop where
  notFound : response.status = 404 ↔ ∀ target, ¬r.Targets bound d target
  forbidden : response.status = 403
    ↔ ∃ target, r.Targets bound d target ∧ r.Overreaches bound target
  conflict : response.status = 409
    ↔ ∃ target, r.Targets bound d target ∧ ¬r.Overreaches bound target
        ∧ r.TakesLast bound d target
  ok : response.status = 200
    ↔ ∃ target, r.Targets bound d target ∧ ¬r.Overreaches bound target
        ∧ ¬r.TakesLast bound d target
  member : response.status = 200 → ∀ target, r.Targets bound d target →
    response
      = Reply.success 200 ({ target with role := r.role } : Member).toJson
  changed : response.status = 200 →
    d' = DirectoryTables.withRole d bound.organizationId r.userId r.role
  unchanged : response.status ≠ 200 → d' = d
  others :
    d'.memberships.filter (fun row => !row.ties bound.organizationId r.userId)
    = d.memberships.filter fun row => !row.ties bound.organizationId r.userId

/-- Every request is told how it has ended. -/
theorem Outcome.returns {result : Except Refusal Member}
    (h : r.Outcome bound d result d') :
    ∃ told, response result = .returns told := by
  cases h <;> exact ⟨_, rfl⟩

/-- The status tells how a request has ended, and one way alone was open to
it. -/
theorem Outcome.declared {result : Except Refusal Member} {told : Response}
    (hunique : d.UniqueMemberships) (h : r.Outcome bound d result d')
    (htold : response result = .returns told) :
    r.Declared bound d told d' where
  notFound := by
    constructor
    · intro hstatus
      cases h with
      | notListed hnone => exact hnone
      | overreaches | takesLast | changed =>
        cases htold
        cases hstatus
    · intro hnone
      obtain ⟨rfl, -⟩ := h.unique hunique (.notListed hnone)
      cases htold
      rfl
  forbidden := by
    constructor
    · intro hstatus
      cases h with
      | overreaches htarget hover => exact ⟨_, htarget, hover⟩
      | notListed | takesLast | changed =>
        cases htold
        cases hstatus
    · intro ⟨_, htarget, hover⟩
      obtain ⟨rfl, -⟩ := h.unique hunique (.overreaches htarget hover)
      cases htold
      rfl
  conflict := by
    constructor
    · intro hstatus
      cases h with
      | takesLast htarget hmay hlast => exact ⟨_, htarget, hmay, hlast⟩
      | notListed | overreaches | changed =>
        cases htold
        cases hstatus
    · intro ⟨_, htarget, hmay, hlast⟩
      obtain ⟨rfl, -⟩ := h.unique hunique (.takesLast htarget hmay hlast)
      cases htold
      rfl
  ok := by
    constructor
    · intro hstatus
      cases h with
      | changed htarget hmay hspares => exact ⟨_, htarget, hmay, hspares⟩
      | notListed | overreaches | takesLast =>
        cases htold
        cases hstatus
    · intro ⟨_, htarget, hmay, hspares⟩
      obtain ⟨rfl, -⟩ := h.unique hunique (.changed htarget hmay hspares)
      cases htold
      rfl
  member := by
    intro hstatus target htarget
    cases h with
    | changed htarget' =>
      cases htarget.unique hunique htarget'
      cases htold
      rfl
    | notListed | overreaches | takesLast =>
      cases htold
      cases hstatus
  changed := by
    intro hstatus
    cases h with
    | changed => exact (DirectoryTables.withRole_eq_setRole hunique).symm
    | notListed | overreaches | takesLast =>
      cases htold
      cases hstatus
  unchanged := by
    intro hstatus
    cases h with
    | notListed | overreaches | takesLast => rfl
    | changed =>
      cases htold
      exact absurd rfl hstatus
  others := by
    cases h with
    | notListed | overreaches | takesLast => rfl
    | changed =>
      rw [← DirectoryTables.withRole_eq_setRole hunique]
      exact DirectoryTables.filter_not_ties_withRole

/-- Whether the directory is in memory or in the tables of a database: a bound
request to change a role is answered as declared, and leaves what is
declared. -/
theorem answered_as_declared {server : World Sql.serverInterface σ}
    {tables : σ → DirectoryTables}
    (hserver : DirectoryTables.Serves server tables)
    {s : σ} (hs : tables s = .atRest d)
    (hbound : r.ctx.organization = some bound)
    (hunique : d.UniqueMemberships)
    (rows : World Sql.serverInterface τ) (t : τ) :
    ∃ told d', r.Declared bound d told d'
      ∧ r.answer.run (ApiProgram.world MemoryDirectory.answer rows) (d, t)
        = (.returns told, (d', t))
      ∧ ∃ s', r.answer.toDatabase.run server s = (.returns told, s')
        ∧ tables s' = .atRest d' := by
  obtain ⟨result, d', st, hmemory, rfl, houtcome⟩ :=
    run_program (holds_memory rows t) rfl hbound hunique
  obtain ⟨result', d'', s', htables, hs', houtcome'⟩ :=
    run_program (holds_tables hserver) hs hbound hunique
  obtain ⟨rfl, rfl⟩ := houtcome.unique hunique houtcome'
  obtain ⟨told, htold⟩ := houtcome.returns
  refine ⟨told, d', houtcome.declared hunique htold, ?_, s', ?_, hs'⟩
  · rw [run_answer hmemory, htold]
  · rw [run_toDatabase, run_answer htables, htold]

-- An admin makes a member a viewer.

open RoleRequests

def acmeRequest : RoleRequest := ⟨acmeContext 3 .admin, .ofNat 4, .viewer⟩

/-- The admin is told so, by the directory in memory and by the one in tables
that list members backwards. -/
theorem acme_answered_as_declared :
    ∃ told d', told.status = 200 ∧ d' = acmeDirectory [acmeRow .viewer 3]
      ∧ acmeRequest.answer.run
          (ApiProgram.world MemoryDirectory.answer
            fun _ s => (.error .poolClosed, s))
          (acmeDirectory [acmeRow .member 3], ())
        = (.returns told, (d', ()))
      ∧ ∃ s', acmeRequest.answer.toDatabase.run
          (DirectoryTables.answer List.reverse)
          (.atRest (acmeDirectory [acmeRow .member 3])) = (.returns told, s')
        ∧ s' = .atRest d' := by
  have hunique :
      (acmeDirectory [acmeRow .member 3]).UniqueMemberships := by
    unfold MemoryDirectory.UniqueMemberships
    decide +kernel
  obtain ⟨told, d', hdeclared, hmemory, htables⟩ := answered_as_declared
    (DirectoryTables.serves_answer List.reverse_perm)
    (r := acmeRequest) (d := acmeDirectory [acmeRow .member 3])
    (s := .atRest (acmeDirectory [acmeRow .member 3])) rfl rfl hunique
    (fun _ s => (.error .poolClosed, s)) ()
  have hstatus : told.status = 200 := by
    refine hdeclared.ok.2 ⟨⟨.ofNat 4, "", "", .member, ⟨3, 0⟩⟩,
      ⟨⟨acmeRow .member 3, ?_⟩, rfl⟩, ?_, ?_⟩
    · exact ⟨List.mem_of_getElem? (i := 2) rfl, acmeUser 4, rfl, rfl, rfl⟩
    · rintro ⟨hrole | hrole, -⟩ <;> cases hrole
    · rintro ⟨howner, -⟩
      cases howner
  exact ⟨told, d', hstatus, (hdeclared.changed hstatus).trans rfl, hmemory,
    htables⟩

end RoleRequest

end Tenancy
