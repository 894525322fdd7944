/-
The isolation of tenants from end to end. A request comes with a token,
headers and a query; what it leads to, if it is authorized, is a scope
that admits rows. Between the two stand the verification of the token,
the user and the memberships read for it, the selector, the entry into
an organization, the guards, and the predicate of the scope — and what
comes out is one sentence (`authorized_scope_is_isolated`): there is one
organization, the one that the selector spells, it is active, and the
scope admits no row of any other.

A directory need not be a store in memory, nor answer the same twice;
it only has to keep its promises (`KeepsPromises`) in the state in which
it is asked.
-/
import Tenancy.Directory.Memory
import Tenancy.Proofs.Access.Authorization
import Tenancy.Proofs.Uuid
import Tenancy.Scope.Tenant

namespace Tenancy

open Http Program

variable {σ : Type}

-- ========================================================== directory

/-- What a directory promises: the memberships it lists are in organizations
that are active, and so is the organization that it finds, which is the
one asked for. -/
structure KeepsPromises (world : Program.World directoryInterface σ)
    (active : σ → Uuid → Prop) : Prop where
  memberships : ∀ {user : Uuid} {s s' : σ} {memberships : List Membership},
    world (.membershipsFor user) s = (.ok memberships, s') →
      ∀ m ∈ memberships, active s m.organizationId
  organization : ∀ {id : Uuid} {s s' : σ} {found : Organization},
    world (.findOrganization id) s = (.ok (some found), s') →
      found.id = id ∧ active s id

/-- The organization is there and active. -/
def MemoryDirectory.IsActive (d : MemoryDirectory) (id : Uuid) : Prop :=
  ∃ o, d.activeOrganization? id = some o

theorem MemoryDirectory.id_of_activeOrganization? {d : MemoryDirectory}
    {id : Uuid} {o : Organization}
    (h : d.activeOrganization? id = some o) : o.id = id := by
  have hfound := (Option.filter_eq_some_iff.1 h).1
  have hid := List.find?_some hfound
  simpa using hid

/-- The directory in memory keeps its promises. -/
theorem MemoryDirectory.keepsPromises : KeepsPromises answer IsActive where
  memberships := by
    intro user d d' memberships h m hm
    cases h
    obtain ⟨row, -, hrow⟩ := List.mem_filterMap.1 hm
    obtain ⟨o, ho, hm⟩ := Option.bind_eq_some_iff.1 hrow
    cases hm
    rw [← id_of_activeOrganization? ho] at ho
    exact ⟨o, ho⟩
  organization := by
    intro id d d' found h
    have hanswer :
        (Except.ok (d.activeOrganization? id) : Except DatabaseError
          (Option Organization))
        = .ok (some found) := congrArg Prod.fst h
    have hfound := Except.ok.inj hanswer
    exact ⟨id_of_activeOrganization? hfound, found, hfound⟩

-- ============================================================== scope

/-- The rows that a scope admits. -/
theorem TenantScope.admits_iff (scope : TenantScope) (e : Entity)
    (row : ScopedRow) (grants : List PeerGrant) :
    scope.admits e row grants = true ↔
      row.organizationId = scope.organizationId
        ∧ (scope.organizationWide = true ∨ row.ownerId = some scope.callerId
          ∨ ∃ peers ∈ e.peers,
            ⟨peers.table, row.id, scope.callerId, scope.organizationId⟩
              ∈ grants) := by
  have hgrant :
      (Predicate.peerGrant scope.callerId scope.organizationId).admits e row
        grants = true
      ↔ ∃ peers ∈ e.peers,
        ⟨peers.table, row.id, scope.callerId, scope.organizationId⟩
          ∈ grants := by
    cases hpeers : e.peers with
    | none => simp [Predicate.admits, hpeers]
    | some peers =>
      simp only [Predicate.admits, hpeers, List.any_eq_true, Bool.and_eq_true,
        beq_iff_eq, Option.mem_def, Option.some.injEq, exists_eq_left']
      constructor
      · rintro ⟨g, hg, ⟨⟨htable, hentity⟩, huser⟩, horganization⟩
        rw [← htable, ← hentity, ← huser, ← horganization]
        exact hg
      · intro hg
        exact ⟨_, hg, ⟨⟨rfl, rfl⟩, rfl⟩, rfl⟩
  unfold admits predicate
  cases hwide : scope.organizationWide with
  | true => simp [Predicate.admits, Predicate.admitsAll]
  | false =>
    show (row.organizationId == scope.organizationId
        && ((row.ownerId == some scope.callerId
      || ((Predicate.peerGrant scope.callerId scope.organizationId).admits e
        row grants || false))
        && true)) = true ↔ _
    rw [Bool.or_false, Bool.and_true, Bool.and_eq_true, Bool.or_eq_true,
      hgrant]
    simp

-- ========================================================= isolation

variable {world : Program.World directoryInterface σ}
  {active : σ → Uuid → Prop} {s s' : σ}

/-- The organization that is entered is the one that the selector spells. It is
active, and the role and tier in it are the caller's and its own. -/
theorem entered_is_selected (hworld : KeepsPromises world active)
    {caller : Caller} {selector : String}
    {organization : OrganizationContext}
    (h : Succeeds world (Gate.enter caller selector) s organization s') :
    ∃ id, Uuid.ofString? selector = some id ∧
      ((caller.isSuperAdmin = true ∧ active s id
          ∧ ∃ found, world (.findOrganization id) s = (.ok (some found), s')
            ∧ organization
              = ⟨id, (caller.membershipIn? id).map Membership.role,
                found.tier⟩)
        ∨ (caller.isSuperAdmin = false ∧ ∃ m ∈ caller.memberships,
          m.organizationId = id
            ∧ organization = ⟨id, some m.role, m.tier⟩)) := by
  obtain ⟨id, hid, hentered⟩ := Gate.succeeds_enter.1 h
  refine ⟨id, hid, ?_⟩
  rcases hentered with ⟨hadmin, found, hfound, rfl⟩ | ⟨hadmin, rfl, m, hm, rfl⟩
  · obtain ⟨rfl, hactive⟩ := hworld.organization hfound
    exact .inl ⟨hadmin, hactive, found, hfound, rfl⟩
  · have hmember : m ∈ caller.memberships := List.mem_of_find?_eq_some hm
    have hsame : m.organizationId = id := by simpa using List.find?_some hm
    exact .inr
      ⟨hadmin, m, hmember, hsame,
        by rw [OrganizationContext.ofMembership, hsame]⟩

/-- Tenants are isolated from end to end. If a request is authorized and its
context has a scope, then the caller is the active user that the
request's token names, with the memberships read for it; the request
selects an organization by its identifier, which was active when it was
looked up; role and tier are those in that organization; and the scope
admits exactly the rows of that organization that the caller owns or
holds a grant for there — all of its rows, for a system administrator. -/
theorem authorized_scope_is_isolated {gate : Gate} {now : Int}
    {requirement : Requirement}
    {headers : Headers} {query : Option String} {ctx : RequestContext}
    {scope : TenantScope} (hworld : KeepsPromises world active)
    (h : Succeeds world (gate.authorize now requirement headers query) s
      ctx s')
    (hscope : TenantScope.ofRequest ctx = .ok scope) :
    ∃ text claims user s₁ s₂, bearerToken? headers = some text
      ∧ gate.tokens.verify now text = .ok claims
      ∧ world (.findUser claims.subject) s = (.ok (some user), s₁)
      ∧ user.isActive = true
      ∧ world (.membershipsFor user.id) s₁ = (.ok ctx.caller.memberships, s₂)
      ∧ ctx.caller = .ofUser user ctx.caller.memberships
      ∧ ∃ selector O,
        organizationSelector? gate.organizationHeader headers query
          = some selector
        ∧ Uuid.ofString? selector = some O
        ∧ ((ctx.caller.isSuperAdmin = true ∧ active s₂ O
            ∧ ∃ found, world (.findOrganization O) s₂ = (.ok (some found), s')
              ∧ ctx.organization
                = some ⟨O, (ctx.caller.membershipIn? O).map Membership.role,
                  found.tier⟩)
          ∨ (ctx.caller.isSuperAdmin = false ∧ active s₁ O
            ∧ ∃ m ∈ ctx.caller.memberships, m.organizationId = O
              ∧ ctx.organization = some ⟨O, some m.role, m.tier⟩))
        ∧ ∀ e row grants, scope.admits e row grants = true ↔
            row.organizationId = O
              ∧ (ctx.caller.isSuperAdmin = true
                ∨ (∃ m ∈ ctx.caller.memberships, m.organizationId = O)
                  ∧ (row.ownerId = some ctx.caller.userId
                    ∨ ∃ peers ∈ e.peers,
                      ⟨peers.table, row.id, ctx.caller.userId, O⟩
                        ∈ grants)) := by
  obtain ⟨s₂, hidentify, hbound, -⟩ := Gate.succeeds_authorize.1 h
  obtain ⟨text, claims, user, memberships, s₁, htoken, hclaims, huser, hactive,
    hmemberships, hcaller⟩ :=
    Gate.succeeds_identify.1 hidentify
  have hread : ctx.caller.memberships = memberships := by rw [hcaller]; rfl
  rw [← hread] at hmemberships hcaller
  refine ⟨text, claims, user, s₁, s₂, htoken, hclaims, huser, hactive,
    hmemberships, hcaller, ?_⟩
  -- A scope needs a bound organization, and only a selected one is bound.
  obtain ⟨bound, hrequired, hscope⟩ := bind_eq_ok.1 hscope
  have horganization : ctx.organization = some bound := by
    unfold RequestContext.requireOrganization at hrequired
    split at hrequired
    · rename_i o ho
      cases hrequired
      exact ho
    · cases hrequired
  cases hscope
  rcases hbound with ⟨-, hbound⟩ | ⟨-, -, hnone, -⟩
  · rcases Gate.succeeds_bind_organization.1 hbound with
      ⟨selector, entered, hselector, hentered, henter⟩ | ⟨-, -, hnone, -⟩
    · rw [horganization] at hentered
      cases hentered
      obtain ⟨O, hO, hentered⟩ := entered_is_selected hworld henter
      have hid : bound.organizationId = O := by
        rcases hentered with ⟨-, -, found, -, rfl⟩ | ⟨-, m, -, -, rfl⟩ <;> rfl
      refine ⟨selector, O, hselector, hO, ?_, fun e row grants => ?_⟩
      · rw [horganization]
        rcases hentered with
          ⟨hadmin, hactive, found, hfound, rfl⟩ | ⟨hadmin, m, hm, hsame, rfl⟩
        · exact .inl ⟨hadmin, hactive, found, hfound, rfl⟩
        · refine .inr ⟨hadmin, ?_, m, hm, hsame, rfl⟩
          rw [← hsame]
          exact hworld.memberships hmemberships m hm
      · rw [TenantScope.admits_iff, ← hid]
        refine and_congr_right fun _ => ?_
        rcases hentered with ⟨hadmin, -⟩ | ⟨hadmin, m, hm, hsame, -⟩
        · simp [hadmin]
        · have hmember :
              ∃ m ∈ ctx.caller.memberships,
                m.organizationId = bound.organizationId :=
            ⟨m, hm, hsame.trans hid.symm⟩
          simp [hadmin, hmember]
    · rw [horganization] at hnone
      cases hnone
  · rw [horganization] at hnone
    cases hnone

/-- A gate, and a token that it verifies, of the user 7. -/
def smallGate : Gate := ⟨⟨"k", 1⟩, "x-organization-id"⟩

def smallToken : String :=
  "eyJ0eXAiOiJKV1QiLCJhbGciOiJIUzI1NiJ9."
    ++ "eyJzdWIiOiIwMDAwMDAwMC0wMDAwLTAwMDAtMDAwMC0wMDAwMDAwMDAwMDci"
    ++ "LCJpYXQiOjAsImV4cCI6MzYwMH0."
    ++ "rMMgO2utM964hmeCJXi4T-JxWG-cdtkFH1h3-YjzHhY"

def smallUser : User :=
  ⟨.ofNat 7, "ann@example.org", "Ann", .member, "", true, ⟨0, 0⟩⟩

/-- The user 7 is a member of the organization 1 and of no other. -/
def smallDirectory : MemoryDirectory where
  users := [smallUser]
  organizations := [
    ⟨.ofNat 1, "one", "One", .free, true, ⟨0, 0⟩⟩,
    ⟨.ofNat 2, "two", "Two", .free, true, ⟨0, 0⟩⟩]
  memberships := [⟨.ofNat 7, .ofNat 1, .member, ⟨0, 0⟩⟩]

def smallHeaders : Headers :=
  [("Authorization", "Bearer " ++ smallToken),
    ("X-Organization-Id", "00000000-0000-0000-0000-000000000001")]

/-- The token is that of the request, whatever comes with it. -/
theorem bearerToken?_smallToken (others : Headers) :
    bearerToken? (("Authorization", "Bearer " ++ smallToken) :: others)
      = some smallToken := by
  have hname :
      Text.sameIgnoringCase "Authorization" "authorization" = true := by
    decide +kernel
  have halone : bearerToken? [("Authorization", "Bearer " ++ smallToken)]
      = some smallToken := by
    decide +kernel
  unfold bearerToken? Headers.text? Headers.get? at halone ⊢
  rw [List.find?_cons_of_pos (by exact hname)] at halone ⊢
  exact halone

set_option maxRecDepth 100000 in
theorem smallGate_verify :
    smallGate.tokens.verify 5 smallToken = .ok ⟨.ofNat 7, 0, 3600⟩ := by
  have h : (smallGate.tokens.verify 5 smallToken).toOption
      = some ⟨.ofNat 7, 0, 3600⟩ := by
    decide +kernel
  cases hverify : smallGate.tokens.verify 5 smallToken with
  | error e =>
    rw [hverify] at h
    cases h
  | ok claims =>
    rw [hverify] at h
    cases h
    rfl

theorem smallDirectory_membershipsFor :
    MemoryDirectory.answer (.membershipsFor (.ofNat 7)) smallDirectory
      = (.ok [(⟨.ofNat 1, "one", .member, .free⟩ : Membership)],
        smallDirectory) := by
  have hsorted : MemoryDirectory.byTime
        (smallDirectory.memberships.filter fun m => m.userId == .ofNat 7)
      = [⟨.ofNat 7, .ofNat 1, .member, ⟨0, 0⟩⟩] := by
    simp [MemoryDirectory.byTime, smallDirectory]
  show (Except.ok ((MemoryDirectory.byTime
      (smallDirectory.memberships.filter fun m =>
        m.userId == .ofNat 7)).filterMap smallDirectory.userSide?),
    smallDirectory) = _
  rw [hsorted]
  rfl

/-- The member's request is authorized, and its scope stays in the organization
1. -/
theorem smallRequest_is_isolated :
    ∃ ctx scope, Succeeds MemoryDirectory.answer
        (smallGate.authorize 5 (.within .organization) smallHeaders none)
        smallDirectory ctx smallDirectory
      ∧ TenantScope.ofRequest ctx = .ok scope
      ∧ ∀ row grants, scope.admits .project row grants = true →
        row.organizationId = .ofNat 1 := by
  have hselector :
      organizationSelector? smallGate.organizationHeader smallHeaders none
      = some "00000000-0000-0000-0000-000000000001" := by decide +kernel
  have hid : Uuid.ofString? "00000000-0000-0000-0000-000000000001"
      = some (.ofNat 1) := by
    decide +kernel
  have hidentify : Succeeds MemoryDirectory.answer
      (smallGate.identify 5 (bearerToken? smallHeaders)) smallDirectory
      (.ofUser smallUser [⟨.ofNat 1, "one", .member, .free⟩]) smallDirectory :=
    Gate.succeeds_identify.2 ⟨smallToken, ⟨.ofNat 7, 0, 3600⟩, smallUser,
      [⟨.ofNat 1, "one", .member, .free⟩], smallDirectory,
      bearerToken?_smallToken _,
      smallGate_verify, rfl, rfl, smallDirectory_membershipsFor, rfl⟩
  have henter : Succeeds MemoryDirectory.answer
      (Gate.enter (.ofUser smallUser [⟨.ofNat 1, "one", .member, .free⟩])
        "00000000-0000-0000-0000-000000000001")
      smallDirectory ⟨.ofNat 1, some .member, .free⟩ smallDirectory :=
    Gate.succeeds_enter.2 ⟨.ofNat 1, hid, .inr ⟨rfl, rfl, _, rfl, rfl⟩⟩
  have hauthorize : Succeeds MemoryDirectory.answer
      (smallGate.authorize 5 (.within .organization) smallHeaders none)
        smallDirectory
      ⟨.ofUser smallUser [⟨.ofNat 1, "one", .member, .free⟩],
        some ⟨.ofNat 1, some .member, .free⟩⟩
      smallDirectory := by
    refine Gate.succeeds_authorize.2
      ⟨smallDirectory, hidentify, .inl ⟨.inl rfl, ?_⟩, rfl⟩
    rw [hselector]
    exact Gate.succeeds_bind_organization.2 (.inl ⟨_, _, rfl, rfl, henter⟩)
  refine ⟨_, ⟨.ofNat 1, .ofNat 7, false⟩, hauthorize, rfl,
    fun row grants hadmits => ?_⟩
  obtain ⟨-, -, -, -, -, -, -, -, -, -, -, selector, O, hselected, hO, -,
      hrows⟩ :=
    authorized_scope_is_isolated MemoryDirectory.keepsPromises hauthorize rfl
  rw [hselector] at hselected
  cases hselected
  rw [hid] at hO
  cases hO
  exact ((hrows .project row grants).1 hadmits).1

end Tenancy
