/-
What authorization decides, and how it says no. An operation makes
demands of a request, and makes them in one order (`Demand.inOrder`): an
organization must be selected where one is needed, the caller must be
able to work in it, and so on down to its tier. Before all of them a
caller must be known.

So the verdict is fixed by the policy (`authorize_decides`). A request is
authorized exactly if every demand is met; what it is bound to is the
caller and the organization selected, with the caller's own role and its
tier; and if it is refused, then for the first demand that it fails to
meet. Every step of authorization refuses for one reason of its own, so
what is to be shown is that an earlier demand is met wherever a later
step is reached.

The directory may answer differently each time it is asked, and all that
is asked of it is that it answers (`AnswersReads`). The policy goes by
its answers: whether a system administrator gets into an organization is
said when the organization is looked up, and whether anyone else does by
the memberships that are listed, before. The two are told apart because
they may disagree: an administrator with a listed membership does not get
in where the organization is not found any more. Where the answers agree
(`Coherent`), a membership is enough for everyone.
-/
import Tenancy.Proofs.Access.Isolation
import Tenancy.Proofs.Conduct
import Tenancy.Proofs.Policy.Guards

namespace Tenancy

open Http Program

variable {σ : Type} {world : Program.World directoryInterface σ} {s s' s₁ : σ}

-- ========================================================== directory

/-- The directory finds an organization, which it does only if it is active. -/
def Finds (world : Program.World directoryInterface σ) (s : σ) (id : Uuid)
    (o : Organization) : Prop :=
  ∃ s', world (.findOrganization id) s = (.ok (some o), s')

/-- Whoever reads the directory gets an answer. -/
def AnswersReads (world : Program.World directoryInterface σ) : Prop :=
  ∀ call : DirectoryCall, call.isChange = false →
    ∀ s, ∃ a s', world call s = (.ok a, s')

/-- The answers agree: an organization is found by its own identifier, and
the organization of a listed membership is there, in the tier listed, when it
is looked up next. -/
structure Coherent (world : Program.World directoryInterface σ) : Prop where
  found : ∀ {id : Uuid} {s : σ} {o : Organization},
    Finds world s id o → o.id = id
  listed : ∀ {user : Uuid} {s s' : σ} {memberships : List Membership},
    world (.membershipsFor user) s = (.ok memberships, s') →
      ∀ m ∈ memberships, ∃ o,
        Finds world s' m.organizationId o ∧ o.tier = m.tier

/-- An organization is found one way only. -/
theorem Finds.unique {id : Uuid} {o o' : Organization} (h : Finds world s id o)
    (h' : Finds world s id o') : o = o' := by
  obtain ⟨_, h⟩ := h
  obtain ⟨_, h'⟩ := h'
  cases h.symm.trans h'
  rfl

/-- The directory in memory answers every read. -/
theorem MemoryDirectory.answersReads : AnswersReads answer := by
  intro call hread d
  cases call with
  | setMemberRole | setOrganizationTier => cases hread
  | _ => exact ⟨_, _, rfl⟩

/-- The directory in memory gives all its answers from one state. -/
theorem MemoryDirectory.coherent : Coherent answer where
  found := by
    rintro id d o ⟨d', h⟩
    exact (keepsPromises.organization h).1
  listed := by
    intro user d d' memberships h m hm
    cases h
    obtain ⟨row, -, hrow⟩ := List.mem_filterMap.1 hm
    obtain ⟨o, ho, hm⟩ := Option.bind_eq_some_iff.1 hrow
    cases hm
    refine ⟨o, ⟨d, ?_⟩, rfl⟩
    show (Except.ok (d.activeOrganization? o.id), d) = _
    rw [id_of_activeOrganization? ho, ho]
    rfl

-- ============================================================= demands

/-- A request that is to be authorized, with what it is authorized by. -/
structure Petition where
  gate : Gate
  now : Int
  requirement : Requirement
  headers : Headers
  query : Option String

/-- What an operation demands of the request of a known caller. -/
inductive Demand where
  /-- An organization is selected, if the operation works inside one. -/
  | selection
  /-- The caller may work in the organization selected. -/
  | entry
  /-- The caller is a system administrator, if the operation is for those. -/
  | standing
  /-- There is an organization to have a role in, if the operation asks for
  one. -/
  | rolePlace
  | role
  /-- There is an organization to have a tier, if the operation asks for
  one. -/
  | tierPlace
  | tier

/-- The demands in the order in which they are made. -/
def Demand.inOrder : List Demand :=
  [.selection, .entry, .standing, .rolePlace, .role, .tierPlace, .tier]

namespace Petition

variable {p : Petition} {caller : Caller} {bound : OrganizationContext}

/-- The authorization of a petition. -/
def program (p : Petition) : AccessProgram RequestContext :=
  p.gate.authorize p.now p.requirement p.headers p.query

/-- The organization that the request selects, as it is spelled. -/
def selector? (p : Petition) : Option String :=
  organizationSelector? p.gate.organizationHeader p.headers p.query

section

variable (world) (p) (s : σ)

/-- The caller is the active user that the request's token names, with the
memberships that the directory lists. -/
def Identifies (caller : Caller) (s₁ : σ) : Prop :=
  ∃ text claims user memberships s₀, bearerToken? p.headers = some text
    ∧ p.gate.tokens.verify p.now text = .ok claims
    ∧ world (.findUser claims.subject) s = (.ok (some user), s₀)
    ∧ user.isActive = true
    ∧ world (.membershipsFor user.id) s₀ = (.ok memberships, s₁)
    ∧ caller = .ofUser user memberships

/-- A caller may work in an organization: a system administrator in one that
is found, anyone else in one that they are listed as a member of. -/
def MayEnter (caller : Caller) (id : Uuid) : Prop :=
  (caller.isSuperAdmin = true ∧ ∃ o, Finds world s id o)
    ∨ (caller.isSuperAdmin = false
      ∧ ∃ m ∈ caller.memberships, m.organizationId = id)

/-- The organization that the request selects, with the caller's own role in
it and its tier. -/
def Binds (caller : Caller) (bound : OrganizationContext) : Prop :=
  ∃ text id, p.selector? = some text ∧ Uuid.ofString? text = some id
    ∧ ((caller.isSuperAdmin = true ∧ ∃ o, Finds world s id o
          ∧ bound.organizationId = o.id ∧ bound.tier = o.tier)
      ∨ (caller.isSuperAdmin = false ∧ ∃ m, caller.membershipIn? id = some m
          ∧ bound.organizationId = m.organizationId ∧ bound.tier = m.tier))
    ∧ bound.role
      = (caller.membershipIn? bound.organizationId).map Membership.role

/-- The request of a caller meets a demand. -/
def Meets (caller : Caller) : Demand → Prop
  | .selection => p.requirement.scope = .organization → p.selector? ≠ none
  | .entry => ∀ text ∈ p.selector?,
    ∃ id, Uuid.ofString? text = some id ∧ MayEnter world s caller id
  | .standing => p.requirement.scope = .adminOnly → caller.isSuperAdmin = true
  | .rolePlace =>
    caller.isSuperAdmin = false → p.requirement.roles ≠ none →
      p.selector? ≠ none
  | .role => caller.isSuperAdmin = false → ∀ allowed ∈ p.requirement.roles,
    ∀ bound, p.Binds world s caller bound → ∃ role ∈ bound.role, role ∈ allowed
  | .tierPlace =>
    caller.isSuperAdmin = false → p.requirement.minTier ≠ none →
      p.selector? ≠ none
  | .tier => caller.isSuperAdmin = false → ∀ required ∈ p.requirement.minTier,
    ∀ bound, p.Binds world s caller bound → required.rank ≤ bound.tier.rank

/-- The reason for which a request is refused that does not meet a demand. -/
def Denies (caller : Caller) : Demand → Denial → Prop
  | .selection, reason | .rolePlace, reason | .tierPlace, reason =>
    reason = .organizationContextMissing
  | .entry, reason => reason = .organizationMembershipMissing
  | .standing, reason => reason = .systemAdminRequired
  | .role, reason => reason = .insufficientRole p.requirement.allowedRoles
  | .tier, reason => ∃ required bound, p.requirement.minTier = some required
    ∧ p.Binds world s caller bound
    ∧ reason = .insufficientTier required bound.tier

/-- A demand is not met, all those before it are, and this is the reason. -/
def FirstUnmet (caller : Caller) (reason : Denial) : Prop :=
  ∃ before demand after, Demand.inOrder = before ++ demand :: after
    ∧ (∀ d ∈ before, p.Meets world s caller d) ∧ ¬p.Meets world s caller demand
    ∧ p.Denies world s caller demand reason

end

-- ============================================================= binding

/-- The bound organization is fixed by the selector and the caller. -/
theorem Binds.unique {bound' : OrganizationContext}
    (h : p.Binds world s caller bound) (h' : p.Binds world s caller bound') :
    bound = bound' := by
  obtain ⟨text, id, htext, hid, hplace, hrole⟩ := h
  obtain ⟨text', id', htext', hid', hplace', hrole'⟩ := h'
  cases htext.symm.trans htext'
  cases hid.symm.trans hid'
  have hsame : bound.organizationId = bound'.organizationId
      ∧ bound.tier = bound'.tier := by
    rcases hplace with
      ⟨hadmin, o, ho, hin, htier⟩ | ⟨hadmin, m, hm, hin, htier⟩
      <;> rcases hplace' with
        ⟨hadmin', o', ho', hin', htier'⟩ | ⟨hadmin', m', hm', hin', htier'⟩
    · cases ho.unique ho'
      exact ⟨hin.trans hin'.symm, htier.trans htier'.symm⟩
    · cases hadmin.symm.trans hadmin'
    · cases hadmin.symm.trans hadmin'
    · cases hm.symm.trans hm'
      exact ⟨hin.trans hin'.symm, htier.trans htier'.symm⟩
  rw [← hsame.1] at hrole'
  show (⟨bound.organizationId, bound.role, bound.tier⟩ : OrganizationContext)
    = ⟨bound'.organizationId, bound'.role, bound'.tier⟩
  rw [hsame.1, hsame.2, hrole.trans hrole'.symm]

/-- A caller without a role in the bound organization is no member of it. -/
theorem Binds.not_member (h : p.Binds world s caller bound)
    (hrole : bound.role = none) :
    ∀ m ∈ caller.memberships, m.organizationId ≠ bound.organizationId := by
  obtain ⟨-, -, -, -, -, hown⟩ := h
  rw [hrole, eq_comm, Option.map_eq_none_iff] at hown
  intro m hm hsame
  have hnot := List.find?_eq_none.1 hown m hm
  simp [hsame] at hnot

/-- The organizations of a caller's memberships can be found. -/
theorem listed_of_identifies (hworld : Coherent world)
    (h : p.Identifies world s caller s₁) :
    ∀ m ∈ caller.memberships,
      ∃ o, Finds world s₁ m.organizationId o ∧ o.tier = m.tier := by
  obtain ⟨_, _, _, _, _, -, -, -, -, hmemberships, rfl⟩ := h
  exact hworld.listed hmemberships

/-- Where the answers agree, an organization that an administrator is a member
of is found as well, and a membership is enough. -/
theorem mayEnter_iff (hworld : Coherent world)
    (hcaller : p.Identifies world s caller s₁) {id : Uuid} :
    MayEnter world s₁ caller id ↔
      (caller.isSuperAdmin = true ∧ ∃ o, Finds world s₁ id o)
        ∨ ∃ m ∈ caller.memberships, m.organizationId = id := by
  unfold MayEnter
  cases hadmin : caller.isSuperAdmin with
  | false => simp
  | true =>
    have hfound : (∃ m ∈ caller.memberships, m.organizationId = id) →
        ∃ o, Finds world s₁ id o := by
      rintro ⟨m, hm, rfl⟩
      obtain ⟨o, ho, -⟩ := listed_of_identifies hworld hcaller m hm
      exact ⟨o, ho⟩
    simpa using hfound

/-- Where the answers agree, what is bound is the organization that the request
selects, in the tier in which it is found. -/
theorem Binds.found (hworld : Coherent world)
    (hcaller : p.Identifies world s caller s₁)
    (h : p.Binds world s₁ caller bound) :
    ∃ text o, p.selector? = some text
      ∧ Uuid.ofString? text = some bound.organizationId
      ∧ Finds world s₁ bound.organizationId o ∧ bound.tier = o.tier := by
  obtain ⟨text, id, htext, hid, hplace, -⟩ := h
  rcases hplace with ⟨-, o, ho, hin, htier⟩ | ⟨-, m, hm, hin, htier⟩
  · rw [hin, hworld.found ho]
    exact ⟨text, o, htext, hid, ho, htier⟩
  · have hsame : m.organizationId = id := by simpa using List.find?_some hm
    obtain ⟨o, ho, hlisted⟩ := listed_of_identifies hworld hcaller m
      (List.mem_of_find?_eq_some hm)
    rw [hin]
    rw [← hsame] at hid
    exact ⟨text, o, htext, hid, ho, htier.trans hlisted.symm⟩

end Petition

namespace AccessProgram

/-- A read is answered, so asking it does not fail. -/
theorem not_fails_ask (hworld : AnswersReads world) {call : DirectoryCall}
    (hread : call.isChange = false) {e : AccessError} :
    ¬Fails world (ask call) s e s' := by
  obtain ⟨a, s₁, hanswer⟩ := hworld call hread s
  intro h
  exact h.not_succeeds (succeeds_ask.2 hanswer)

/-- To require something fails with its own reason, for want of it. -/
theorem fails_require {α : Type} {reason : Denial} {x : Option α}
    {e : AccessError} :
    Fails world (require reason x) s e s'
      ↔ x = none ∧ e = .denied reason ∧ s = s' := by
  cases x with
  | none =>
    unfold require
    rw [fails_throw, eq_comm (a := AccessError.denied reason)]
    simp
  | some a => exact ⟨fun h => absurd h not_fails_pure, fun h => nomatch h.1⟩

end AccessProgram

namespace Gate

open AccessProgram

variable {gate : Gate} {caller : Caller} {e : AccessError}

/-- Whatever is wrong with a credential, the caller is unknown. -/
theorem fails_identify (hworld : AnswersReads world) {now : Int}
    {token : Option String}
    (h : Fails world (gate.identify now token) s e s') :
    e = .denied .unauthenticated := by
  rcases fails_bind.1 h with h | ⟨text, _, -, h⟩
  · exact (fails_require.1 h).2.1
  rcases fails_bind.1 h with h | ⟨claims, _, -, h⟩
  · exact (fails_require.1 h).2.1
  rcases fails_bind.1 h with h | ⟨found, _, -, h⟩
  · exact absurd h (not_fails_ask hworld rfl)
  rcases fails_bind.1 h with h | ⟨user, _, -, h⟩
  · exact (fails_require.1 h).2.1
  rcases fails_bind.1 h with h | ⟨memberships, _, -, h⟩
  · exact absurd h (not_fails_ask hworld rfl)
  · exact absurd h not_fails_pure

/-- Whatever keeps a caller out of an organization, it is not said whether it
exists. -/
theorem fails_enter (hworld : AnswersReads world) {selector : String}
    (h : Fails world (enter caller selector) s e s') :
    e = .denied .organizationMembershipMissing := by
  rcases fails_bind.1 h with h | ⟨id, _, -, h⟩
  · exact (fails_require.1 h).2.1
  cases hadmin : caller.isSuperAdmin with
  | true =>
    simp only [hadmin, if_true] at h
    rcases fails_bind.1 h with h | ⟨found, _, -, h⟩
    · exact absurd h (not_fails_ask hworld rfl)
    rcases fails_bind.1 h with h | ⟨organization, _, -, h⟩
    · exact (fails_require.1 h).2.1
    · exact absurd h not_fails_pure
  | false =>
    simp only [hadmin] at h
    rcases fails_bind.1 h with h | ⟨membership, _, -, h⟩
    · exact (fails_require.1 h).2.1
    · exact absurd h not_fails_pure

/-- Binding fails where the entry does, or where a caller who has to select an
organization does not. -/
theorem fails_bind_organization (hworld : AnswersReads world)
    {selector : Option String}
    (h : Fails world (Gate.bind caller selector) s e s') :
    (∃ text, selector = some text ∧ Fails world (enter caller text) s e s'
        ∧ e = .denied .organizationMembershipMissing)
      ∨ selector = none ∧ e = .denied .organizationContextMissing := by
  cases selector with
  | some text =>
    rcases fails_bind.1 h with h | ⟨_, _, -, h⟩
    · exact .inl ⟨text, rfl, h, fails_enter hworld h⟩
    · exact absurd h not_fails_pure
  | none =>
    unfold Gate.bind at h
    cases hadmin : caller.isSuperAdmin with
    | true =>
      simp only [hadmin, if_true] at h
      exact absurd h not_fails_pure
    | false =>
      simp only [hadmin] at h
      exact .inr ⟨rfl, (fails_throw.1 h).1.symm⟩

end Gate

namespace Petition

variable {p : Petition} {caller : Caller} {bound : OrganizationContext}
  {text : String}

/-- A caller enters an organization exactly if the demand on it is met. -/
theorem exists_entered_iff :
    (∃ entered s', Succeeds world (Gate.enter caller text) s entered s') ↔
      ∃ id, Uuid.ofString? text = some id ∧ MayEnter world s caller id := by
  constructor
  · rintro ⟨entered, s', h⟩
    obtain ⟨id, hid, hentered⟩ := Gate.succeeds_enter.1 h
    refine ⟨id, hid, ?_⟩
    rcases hentered with ⟨hadmin, o, ho, -⟩ | ⟨hadmin, -, m, hm, -⟩
    · exact .inl ⟨hadmin, o, s', ho⟩
    · exact .inr ⟨hadmin, m, List.mem_of_find?_eq_some hm,
        by simpa using List.find?_some hm⟩
  · rintro ⟨id, hid, ⟨hadmin, o, s', ho⟩ | ⟨hadmin, m, hm, hsame⟩⟩
    · exact ⟨_, s', Gate.succeeds_enter.2 ⟨id, hid, .inl ⟨hadmin, o, ho, rfl⟩⟩⟩
    · obtain ⟨first, hfirst⟩ :
          ∃ first, caller.membershipIn? id = some first := by
        rw [← Option.isSome_iff_exists, Caller.membershipIn?,
          List.find?_isSome]
        exact ⟨m, hm, by simp [hsame]⟩
      exact ⟨_, s, Gate.succeeds_enter.2
        ⟨id, hid, .inr ⟨hadmin, rfl, first, hfirst, rfl⟩⟩⟩

/-- What is entered is what the request binds its caller to. -/
theorem binds_of_entered (htext : p.selector? = some text)
    (h : Succeeds world (Gate.enter caller text) s bound s') :
    p.Binds world s caller bound := by
  obtain ⟨id, hid, hentered⟩ := Gate.succeeds_enter.1 h
  rcases hentered with ⟨hadmin, o, ho, rfl⟩ | ⟨hadmin, -, m, hm, rfl⟩
  · exact ⟨text, id, htext, hid,
      .inl ⟨hadmin, o, ⟨s', ho⟩, rfl, rfl⟩, rfl⟩
  · refine ⟨text, id, htext, hid, .inr ⟨hadmin, m, hm, rfl, rfl⟩, ?_⟩
    have hsame : m.organizationId = id := by simpa using List.find?_some hm
    show some m.role
      = (caller.membershipIn? m.organizationId).map Membership.role
    rw [hsame, hm]
    rfl

/-- What a request is bound to, once the demand on the entry is met. -/
structure Placed (world : Program.World directoryInterface σ) (p : Petition)
    (s : σ)
    (caller : Caller) (organization : Option OrganizationContext) : Prop where
  entry : p.Meets world s caller .entry
  isNone : organization = none ↔ p.selector? = none
  binds : ∀ bound, organization = some bound ↔ p.Binds world s caller bound

/-- The second step of authorization: an organization is bound if the operation
needs one, or one is selected. -/
def binding (p : Petition) (caller : Caller) :
    AccessProgram (Option OrganizationContext) :=
  if p.requirement.scope = .organization ∨ p.selector?.isSome then
    Gate.bind caller p.selector?
  else pure none

/-- Where nothing is selected, nothing is bound and nothing is demanded of the
entry. -/
theorem placed_of_none (hselector : p.selector? = none) :
    Placed world p s caller none := by
  refine ⟨?_, by simp [hselector], fun bound => ⟨nofun, ?_⟩⟩
  · intro text htext
    rw [hselector] at htext
    cases htext
  · rintro ⟨text, -, htext, -⟩
    rw [hselector] at htext
    cases htext

/-- A caller that has entered an organization is placed there. -/
theorem placed_of_entered (htext : p.selector? = some text)
    (h : Succeeds world (Gate.enter caller text) s bound s') :
    Placed world p s caller (some bound) := by
  have hbinds := binds_of_entered htext h
  refine ⟨?_, by simp [htext],
    fun bound' => ⟨fun hsame => ?_, fun hbound => ?_⟩⟩
  · intro text' htext'
    cases htext.symm.trans htext'
    exact exists_entered_iff.1 ⟨bound, s', h⟩
  · cases hsame
    exact hbinds
  · rw [hbinds.unique hbound]

/-- A caller is placed wherever the binding has succeeded. -/
theorem placed_of_binding {organization : Option OrganizationContext}
    (h : Succeeds world (p.binding caller) s organization s') :
    Placed world p s caller organization := by
  unfold binding at h
  by_cases hneeded : p.requirement.scope = .organization
    ∨ p.selector?.isSome = true
  · rw [if_pos hneeded] at h
    rcases Gate.succeeds_bind_organization.1 h with
      ⟨text, entered, htext, rfl, hentered⟩ | ⟨hselector, -, rfl, -⟩
    · exact placed_of_entered htext hentered
    · exact placed_of_none hselector
  · rw [if_neg hneeded] at h
    obtain ⟨rfl, -⟩ := succeeds_pure.1 h
    rw [not_or, Option.not_isSome_iff_eq_none] at hneeded
    exact placed_of_none hneeded.2

/-- A binding fails for the first demand that is not met: the one on the entry,
or that something is selected at all. -/
theorem firstUnmet_of_binding (hworld : AnswersReads world) {e : AccessError}
    (h : Fails world (p.binding caller) s e s') :
    ∃ reason, e = .denied reason ∧ p.FirstUnmet world s caller reason := by
  unfold binding at h
  by_cases hneeded : p.requirement.scope = .organization
    ∨ p.selector?.isSome = true
  · rw [if_pos hneeded] at h
    rcases Gate.fails_bind_organization hworld h with
      ⟨text, htext, hentry, rfl⟩ | ⟨hselector, rfl⟩
    · refine ⟨_, rfl, [.selection], .entry, _, rfl, ?_, ?_, rfl⟩
      · simp only [List.forall_mem_cons]
        exact ⟨fun _ => by simp [htext], nofun⟩
      · intro hmeets
        obtain ⟨entered, s'', hentered⟩ :=
          exists_entered_iff.2 (hmeets text htext)
        exact hentry.not_succeeds hentered
    · refine ⟨_, rfl, [], .selection, _, rfl, nofun, ?_, rfl⟩
      intro hmeets
      rcases hneeded with hscope | hsome
      · exact hmeets hscope hselector
      · rw [hselector] at hsome
        cases hsome
  · rw [if_neg hneeded] at h
    exact absurd h not_fails_pure

-- ============================================================== guards

section

variable {organization : Option OrganizationContext} {reason : Denial}

/-- A caller that is placed in an organization has selected it. -/
theorem Placed.selected (h : Placed world p s caller organization)
    (hbound : organization = some bound) : p.selector? ≠ none := by
  intro hselector
  rw [h.isNone.2 hselector] at hbound
  cases hbound

/-- A scope that is passed meets the first demands. -/
theorem meets_of_checkScope (h : Placed world p s caller organization)
    (hok : Guard.checkScope ⟨caller, organization⟩ p.requirement = .ok ()) :
    p.Meets world s caller .selection ∧ p.Meets world s caller .standing := by
  obtain ⟨hadmin, hbound⟩ := Guard.checkScope_eq_ok.1 hok
  exact ⟨fun hscope hselector => hbound hscope (h.isNone.2 hselector), hadmin⟩

/-- A role that is passed meets those on the role. -/
theorem meets_of_checkRole (h : Placed world p s caller organization)
    (hok : Guard.checkRole ⟨caller, organization⟩ p.requirement = .ok ()) :
    p.Meets world s caller .rolePlace ∧ p.Meets world s caller .role := by
  have hroles := Guard.checkRole_eq_ok.1 hok
  constructor
  · intro hadmin hsome
    obtain ⟨allowed, hallowed⟩ := Option.ne_none_iff_exists'.1 hsome
    obtain ⟨bound, hbound, -⟩ := hroles hadmin allowed hallowed
    exact h.selected hbound
  · intro hadmin allowed hallowed bound hbinds
    obtain ⟨bound', hbound', hrole⟩ := hroles hadmin allowed hallowed
    rw [hbinds.unique ((h.binds bound').1 hbound')]
    exact hrole

/-- A tier that is passed meets those on the tier. -/
theorem meets_of_checkTier (h : Placed world p s caller organization)
    (hok : Guard.checkTier ⟨caller, organization⟩ p.requirement = .ok ()) :
    p.Meets world s caller .tierPlace ∧ p.Meets world s caller .tier := by
  have htiers := Guard.checkTier_eq_ok.1 hok
  constructor
  · intro hadmin hsome
    obtain ⟨required, hrequired⟩ := Option.ne_none_iff_exists'.1 hsome
    obtain ⟨bound, hbound, -⟩ := htiers hadmin required hrequired
    exact h.selected hbound
  · intro hadmin required hrequired bound hbinds
    obtain ⟨bound', hbound', htier⟩ := htiers hadmin required hrequired
    rw [hbinds.unique ((h.binds bound').1 hbound')]
    exact htier

/-- Where no guard denies, every demand is met. -/
theorem meets_of_evaluate (h : Placed world p s caller organization)
    (hok : Guard.evaluate ⟨caller, organization⟩ p.requirement = .ok ())
    (demand : Demand) : p.Meets world s caller demand := by
  obtain ⟨hscope, hrole, htier⟩ := Guard.evaluate_eq_ok.1 hok
  cases demand with
  | selection => exact (meets_of_checkScope h hscope).1
  | entry => exact h.entry
  | standing => exact (meets_of_checkScope h hscope).2
  | rolePlace => exact (meets_of_checkRole h hrole).1
  | role => exact (meets_of_checkRole h hrole).2
  | tierPlace => exact (meets_of_checkTier h htier).1
  | tier => exact (meets_of_checkTier h htier).2

/-- A scope that is refused is the first demand that is not met. -/
theorem firstUnmet_of_checkScope (h : Placed world p s caller organization)
    (hdenied : Guard.checkScope ⟨caller, organization⟩ p.requirement
      = .error reason) :
    p.FirstUnmet world s caller reason := by
  rcases Guard.checkScope_eq_error.1 hdenied with
    ⟨hscope, hadmin, hreason⟩ | ⟨hscope, hnone, hreason⟩
  · refine ⟨[.selection, .entry], .standing, _, rfl, ?_, ?_, hreason⟩
    · have hselection : p.Meets world s caller .selection := by
        intro hinside
        rw [hscope] at hinside
        cases hinside
      simp only [List.forall_mem_cons]
      exact ⟨hselection, h.entry, nofun⟩
    · intro hmeets
      have hsuper : caller.isSuperAdmin = true := hmeets hscope
      rw [hadmin] at hsuper
      cases hsuper
  · refine ⟨[], .selection, _, rfl, nofun, ?_, hreason⟩
    intro hmeets
    exact hmeets hscope (h.isNone.1 hnone)

/-- Behind the scope, so is a role that is refused. -/
theorem firstUnmet_of_checkRole (h : Placed world p s caller organization)
    (hscope : Guard.checkScope ⟨caller, organization⟩ p.requirement = .ok ())
    (hdenied : Guard.checkRole ⟨caller, organization⟩ p.requirement
      = .error reason) :
    p.FirstUnmet world s caller reason := by
  obtain ⟨hselection, hstanding⟩ := meets_of_checkScope h hscope
  obtain ⟨hadmin, allowed, hallowed, hwhy⟩ :=
    Guard.checkRole_eq_error.1 hdenied
  have hallowed : p.requirement.roles = some allowed := hallowed
  rcases hwhy with ⟨hnone, hreason⟩ | ⟨bound, hbound, hnot, hreason⟩
  · refine ⟨[.selection, .entry, .standing], .rolePlace, _, rfl, ?_, ?_,
      hreason⟩
    · simp only [List.forall_mem_cons]
      exact ⟨hselection, h.entry, hstanding, nofun⟩
    · intro hmeets
      exact hmeets hadmin (by simp [hallowed]) (h.isNone.1 hnone)
  · refine ⟨[.selection, .entry, .standing, .rolePlace], .role, _, rfl, ?_, ?_,
      hreason⟩
    · simp only [List.forall_mem_cons]
      exact ⟨hselection, h.entry, hstanding, fun _ _ => h.selected hbound,
        nofun⟩
    · intro hmeets
      obtain ⟨role, hrole, hmem⟩ :=
        hmeets hadmin allowed hallowed bound ((h.binds bound).1 hbound)
      exact hnot role hrole hmem

/-- And behind both, a tier that is refused. -/
theorem firstUnmet_of_checkTier (h : Placed world p s caller organization)
    (hscope : Guard.checkScope ⟨caller, organization⟩ p.requirement = .ok ())
    (hrole : Guard.checkRole ⟨caller, organization⟩ p.requirement = .ok ())
    (hdenied : Guard.checkTier ⟨caller, organization⟩ p.requirement
      = .error reason) :
    p.FirstUnmet world s caller reason := by
  obtain ⟨hselection, hstanding⟩ := meets_of_checkScope h hscope
  obtain ⟨hrolePlace, hrole⟩ := meets_of_checkRole h hrole
  obtain ⟨hadmin, required, hrequired, hwhy⟩ :=
    Guard.checkTier_eq_error.1 hdenied
  have hrequired : p.requirement.minTier = some required := hrequired
  rcases hwhy with ⟨hnone, hreason⟩ | ⟨bound, hbound, hbelow, hreason⟩
  · refine ⟨[.selection, .entry, .standing, .rolePlace, .role], .tierPlace, _,
      rfl, ?_, ?_, hreason⟩
    · simp only [List.forall_mem_cons]
      exact ⟨hselection, h.entry, hstanding, hrolePlace, hrole, nofun⟩
    · intro hmeets
      exact hmeets hadmin (by simp [hrequired]) (h.isNone.1 hnone)
  · have hbinds := (h.binds bound).1 hbound
    refine ⟨[.selection, .entry, .standing, .rolePlace, .role, .tierPlace],
      .tier, _, rfl, ?_, ?_, required, bound, hrequired, hbinds, hreason⟩
    · simp only [List.forall_mem_cons]
      exact ⟨hselection, h.entry, hstanding, hrolePlace, hrole,
        fun _ _ => h.selected hbound,
        nofun⟩
    · intro hmeets
      exact absurd (hmeets hadmin required hrequired bound hbinds)
        (Nat.not_le.2 hbelow)

/-- The guards deny for the first demand that is not met. -/
theorem firstUnmet_of_evaluate (h : Placed world p s caller organization)
    (hdenied : Guard.evaluate ⟨caller, organization⟩ p.requirement
      = .error reason) :
    p.FirstUnmet world s caller reason := by
  rcases Guard.evaluate_eq_error.1 hdenied with
    hscope | ⟨hscope, hrole | ⟨hrole, htier⟩⟩
  · exact firstUnmet_of_checkScope h hscope
  · exact firstUnmet_of_checkRole h hscope hrole
  · exact firstUnmet_of_checkTier h hscope hrole htier

end

-- ============================================================= verdict

/-- The third step of authorization: the guards look at the bound request. -/
def judgement (p : Petition) (ctx : RequestContext) :
    AccessProgram RequestContext :=
  match Guard.evaluate ctx p.requirement with
  | .ok () => pure ctx
  | .error reason => throw (.denied reason)

/-- The judgement passes the context on, or nothing. -/
theorem succeeds_judgement {ctx ctx' : RequestContext} :
    Succeeds world (p.judgement ctx) s ctx' s' ↔
      Guard.evaluate ctx p.requirement = .ok () ∧ ctx = ctx' ∧ s = s' := by
  unfold judgement
  cases Guard.evaluate ctx p.requirement with
  | ok _ => simp [succeeds_pure]
  | error reason => simp [not_succeeds_throw]

/-- And its only failure is the guard's. -/
theorem fails_judgement {ctx : RequestContext} {e : AccessError} :
    Fails world (p.judgement ctx) s e s' ↔
      ∃ reason,
        Guard.evaluate ctx p.requirement = .error reason ∧ e = .denied reason
        ∧ s = s' := by
  unfold judgement
  cases Guard.evaluate ctx p.requirement with
  | ok _ => simp [not_fails_pure]
  | error reason => simp [fails_throw, eq_comm]

/-- An authorization identifies, binds and judges. -/
theorem program_eq (p : Petition) :
    p.program
      = (p.gate.identify p.now (bearerToken? p.headers) >>= fun caller =>
      p.binding caller
        >>= fun organization => p.judgement ⟨caller, organization⟩) := by
  unfold program Gate.authorize
  congr
  funext caller
  unfold binding
  by_cases hneeded : p.requirement.scope = .organization
    ∨ p.selector?.isSome = true
  · rw [if_pos hneeded]
    exact if_pos hneeded
  · rw [if_neg hneeded]
    exact if_neg hneeded

/-- An authorized request meets every demand, and is bound as it selects. -/
theorem authorized {ctx : RequestContext}
    (h : Succeeds world p.program s ctx s') :
    ∃ s₁, p.Identifies world s ctx.caller s₁
      ∧ (∀ demand, p.Meets world s₁ ctx.caller demand)
      ∧ Placed world p s₁ ctx.caller ctx.organization := by
  rw [program_eq] at h
  obtain ⟨caller, s₁, hcaller, h⟩ := succeeds_bind.1 h
  obtain ⟨organization, s₂, horganization, h⟩ := succeeds_bind.1 h
  obtain ⟨hok, rfl, rfl⟩ := succeeds_judgement.1 h
  have hcaller := Gate.succeeds_identify.1 hcaller
  have hplaced := placed_of_binding horganization
  exact ⟨s₁, hcaller, meets_of_evaluate hplaced hok, hplaced⟩

/-- A refused request has no caller, or there is a first demand that it does
not meet. -/
theorem refused (hworld : AnswersReads world) {e : AccessError}
    (h : Fails world p.program s e s') :
    (e = .denied .unauthenticated ∧ ¬∃ caller s₁,
      p.Identifies world s caller s₁)
      ∨ ∃ caller s₁ reason, p.Identifies world s caller s₁ ∧ e = .denied reason
        ∧ p.FirstUnmet world s₁ caller reason := by
  rw [program_eq] at h
  rcases fails_bind.1 h with hunknown | ⟨caller, s₁, hcaller, h⟩
  · refine .inl ⟨Gate.fails_identify hworld hunknown, ?_⟩
    rintro ⟨caller, s₁, hcaller⟩
    exact hunknown.not_succeeds (Gate.succeeds_identify.2 hcaller)
  · have hcaller := Gate.succeeds_identify.1 hcaller
    refine .inr ⟨caller, s₁, ?_⟩
    rcases fails_bind.1 h with hbinding | ⟨organization, s₂, horganization, h⟩
    · obtain ⟨reason, rfl, hfirst⟩ := firstUnmet_of_binding hworld hbinding
      exact ⟨reason, hcaller, rfl, hfirst⟩
    · obtain ⟨reason, hdenied, rfl, -⟩ := fails_judgement.1 h
      have hplaced := placed_of_binding horganization
      exact ⟨reason, hcaller, rfl, firstUnmet_of_evaluate hplaced hdenied⟩

/-- A petition identifies one caller. -/
theorem Identifies.unique {caller' : Caller} {s₂ : σ}
    (h : p.Identifies world s caller s₁)
    (h' : p.Identifies world s caller' s₂) : caller = caller' ∧ s₁ = s₂ := by
  have hrun :=
    (Gate.succeeds_identify.2 h).symm.trans (Gate.succeeds_identify.2 h')
  cases hrun
  exact ⟨rfl, rfl⟩

/-- Authorization decides by the declared policy and by nothing else. In a
directory that answers, a request is authorized exactly if its token names an
active user and it meets every demand of the operation as this caller's.
It is then bound to this caller, and to an organization if and only if it
selects one: that one, with its tier and the caller's own role in it,
which only a system administrator may lack, and only where they are no
member. A request that is refused is refused because nobody is known by
its token, or else for the first demand that it does not meet. Where the
answers of the directory agree, a caller gets into an organization who is a
system administrator and it is found, or who is a member of it, and what is
bound is the organization selected, in the tier in which it is found. -/
theorem authorize_decides (hworld : AnswersReads world) (p : Petition)
    (s : σ) :
    ((∃ ctx s', Succeeds world p.program s ctx s') ↔
        ∃ caller s₁, p.Identifies world s caller s₁
          ∧ ∀ demand, p.Meets world s₁ caller demand)
    ∧ (∀ ctx s', Succeeds world p.program s ctx s' →
        ∃ s₁, p.Identifies world s ctx.caller s₁
          ∧ (ctx.organization = none ↔ p.selector? = none)
          ∧ ∀ bound, (ctx.organization = some bound
                ↔ p.Binds world s₁ ctx.caller bound)
            ∧ (ctx.organization = some bound → bound.role = none →
                ctx.caller.isSuperAdmin = true
                  ∧ ∀ m ∈ ctx.caller.memberships,
                    m.organizationId ≠ bound.organizationId))
    ∧ (∀ e s', Fails world p.program s e s' →
        (e = .denied .unauthenticated
            ∧ ¬∃ caller s₁, p.Identifies world s caller s₁)
          ∨ ∃ caller s₁ reason, p.Identifies world s caller s₁
            ∧ e = .denied reason ∧ p.FirstUnmet world s₁ caller reason)
    ∧ (Coherent world →
        ∀ caller s₁, p.Identifies world s caller s₁ →
          (p.Meets world s₁ caller .entry ↔
            ∀ text ∈ p.selector?, ∃ id, Uuid.ofString? text = some id
              ∧ ((caller.isSuperAdmin = true ∧ ∃ o, Finds world s₁ id o)
                ∨ ∃ m ∈ caller.memberships, m.organizationId = id))
          ∧ ∀ bound, p.Binds world s₁ caller bound →
            ∃ text o, p.selector? = some text
              ∧ Uuid.ofString? text = some bound.organizationId
              ∧ Finds world s₁ bound.organizationId o
              ∧ bound.tier = o.tier) := by
  refine ⟨⟨?_, ?_⟩, ?_, fun e s' h => refused hworld h, ?_⟩
  · rintro ⟨ctx, s', h⟩
    obtain ⟨s₁, hcaller, hmeets, -⟩ := authorized h
    exact ⟨ctx.caller, s₁, hcaller, hmeets⟩
  · rintro ⟨caller, s₁, hcaller, hmeets⟩
    rcases succeeds_or_fails world p.program s with
      hsucceeds | ⟨e, s', hfails⟩
    · exact hsucceeds
    · rcases refused hworld hfails with
        ⟨-, hunknown⟩ | ⟨caller', s₂, reason, hcaller', -, hfirst⟩
      · exact absurd ⟨caller, s₁, hcaller⟩ hunknown
      · obtain ⟨rfl, rfl⟩ := hcaller.unique hcaller'
        obtain ⟨_, demand, _, -, -, hunmet, -⟩ := hfirst
        exact absurd (hmeets demand) hunmet
  · intro ctx s' h
    obtain ⟨s₁, hcaller, hmeets, hplaced⟩ := authorized h
    refine ⟨s₁, hcaller, hplaced.isNone,
      fun bound => ⟨hplaced.binds bound, ?_⟩⟩
    intro hbound hrole
    have hbinds := (hplaced.binds bound).1 hbound
    refine ⟨?_, hbinds.not_member hrole⟩
    -- Only an administrator enters where they are no member.
    obtain ⟨_, _, -, -, ⟨hadmin, -⟩ | ⟨-, m, hm, hin, -⟩, -⟩ := hbinds
    · exact hadmin
    · exact absurd hin.symm (((hplaced.binds bound).1 hbound).not_member hrole
        m (List.mem_of_find?_eq_some hm))
  · intro hcoherent caller s₁ hcaller
    refine ⟨?_, fun bound hbinds => hbinds.found hcoherent hcaller⟩
    refine forall₂_congr fun text _ => exists_congr fun id => ?_
    exact and_congr_right fun _ => mayEnter_iff hcoherent hcaller

/-- The member's request, for what owners and admins may do. -/
def smallPetition : Petition where
  gate := smallGate
  now := 5
  requirement := (Requirement.within .organization).withRoles [.admin, .owner]
  headers := smallHeaders
  query := none

/-- It is refused for the role: all else that is demanded of it is met. -/
theorem smallPetition_lacks_role :
    ∃ s', Fails MemoryDirectory.answer smallPetition.program smallDirectory
      (.denied (.insufficientRole [.owner, .admin])) s' := by
  have hselector : smallPetition.selector?
      = some "00000000-0000-0000-0000-000000000001" := by
    decide +kernel
  have hid : Uuid.ofString? "00000000-0000-0000-0000-000000000001"
      = some (.ofNat 1) := by
    decide +kernel
  have hcaller : smallPetition.Identifies MemoryDirectory.answer smallDirectory
      (.ofUser smallUser [⟨.ofNat 1, "one", .member, .free⟩]) smallDirectory :=
    ⟨smallToken, ⟨.ofNat 7, 0, 3600⟩, smallUser, _, smallDirectory,
      bearerToken?_smallToken _,
      smallGate_verify, rfl, rfl, smallDirectory_membershipsFor, rfl⟩
  have hbinds : smallPetition.Binds MemoryDirectory.answer smallDirectory
      (.ofUser smallUser [⟨.ofNat 1, "one", .member, .free⟩])
        ⟨.ofNat 1, some .member, .free⟩ :=
    ⟨_, _, hselector, hid, .inr ⟨rfl, _, rfl, rfl, rfl⟩, rfl⟩
  have hrole : ¬smallPetition.Meets MemoryDirectory.answer smallDirectory
      (.ofUser smallUser [⟨.ofNat 1, "one", .member, .free⟩]) .role := by
    intro hmeets
    obtain ⟨role, hrole, hmem⟩ := hmeets rfl _ rfl _ hbinds
    cases hrole
    exact absurd hmem (by decide)
  obtain ⟨hdecides, -, hrefuses, hcoherent⟩ := authorize_decides
    MemoryDirectory.answersReads smallPetition smallDirectory
  rcases succeeds_or_fails MemoryDirectory.answer smallPetition.program
    smallDirectory with
    hsucceeds | ⟨e, s', hfails⟩
  · obtain ⟨caller, s₁, hcaller', hmeets⟩ := hdecides.1 hsucceeds
    obtain ⟨rfl, rfl⟩ := hcaller.unique hcaller'
    exact absurd (hmeets .role) hrole
  · rcases hrefuses e s' hfails with
      ⟨-, hunknown⟩ | ⟨caller, s₁, reason, hcaller', rfl, _, demand, _, -, -,
        hunmet, hdenies⟩
    · exact absurd ⟨_, _, hcaller⟩ hunknown
    obtain ⟨rfl, rfl⟩ := hcaller.unique hcaller'
    cases demand with
    | selection | rolePlace
    | tierPlace => exact absurd (fun _ => by simp [hselector]) hunmet
    | entry =>
      refine absurd ((hcoherent MemoryDirectory.coherent _ _ hcaller').1.2
        fun text htext => ?_) hunmet
      cases hselector.symm.trans htext
      exact ⟨.ofNat 1, hid, .inr ⟨_, List.mem_singleton.2 rfl, rfl⟩⟩
    | standing => exact absurd (fun hscope => by cases hscope) hunmet
    | tier => exact absurd (fun _ _ hrequired => by cases hrequired) hunmet
    | role =>
      have hreason : reason = .insufficientRole [.owner, .admin] := hdenies
      rw [← hreason]
      exact ⟨s', hfails⟩

end Petition

end Tenancy
