/-
Requests to change a member's role, side by side. Each of them lists the
members of its organization first, and by what it has listed it writes
the role or is refused (`Writes`): whoever does not speak as an owner may
neither make an owner nor write over one. Between the two calls the other
requests go on.

What is listed without ownership may therefore be an owner's when it is
written (`Overtaken`), and that is the one way in which a request changes
ownership without speaking as an owner (`changes_without_owner_iff`): it
revokes it, and never grants it. It is the only exception, in every
interleaving and from every directory (`ownersDecide_iff`). Where nobody
has two memberships in one organization, it takes an owner who grants the
ownership just then (`granted_of_overtaken`).

A request has two turns, so all of this is about where in a schedule they
are: the first is the listing, and nothing but a second one changes the
directory (`directory_snoc_cases`).
-/
import Mathlib.Data.List.Induction
import Mathlib.Data.List.Permutation
import Tenancy.Api.Handlers
import Tenancy.Proofs.Directory.Ownership
import Tenancy.Proofs.Interleaving
import Tenancy.Proofs.Uuid

namespace Tenancy

open Program MemoryDirectory

/-- A bound request to change a member's role. -/
structure RoleRequest where
  ctx : RequestContext
  userId : Uuid
  role : OrgRole

namespace RoleRequest

variable {r : RoleRequest} {bound : OrganizationContext}

-- =========================================================== programs

/-- What a request to change a role runs. -/
def program (r : RoleRequest) : ApiProgram (Except Refusal Member) :=
  (Handler.changeRole r.ctx r.userId r.role).run

/-- The request is made by an owner of the organization it is bound to, or by a
system administrator. -/
def SpeaksAsOwner (r : RoleRequest) : Prop :=
  ∃ bound,
    r.ctx.organization = some bound ∧ Handler.speaksAsOwner r.ctx bound = true

/-- By the members that it has read, the request writes. -/
def Writes (r : RoleRequest) (bound : OrganizationContext)
    (members : List Member) : Prop :=
  ∃ target, members.find? (fun m => m.userId == r.userId) = some target
    ∧ (r.role = .owner ∨ target.role = .owner →
      Handler.speaksAsOwner r.ctx bound = true)

/-- The request has ended. -/
def IsOver (p : ApiProgram (Except Refusal Member)) : Prop :=
  ∃ result, p = .done result

/-- The next call is the write, and the last. -/
def IsWriting (r : RoleRequest) (bound : OrganizationContext)
    (p : ApiProgram (Except Refusal Member)) : Prop :=
  ∃ next,
    p = .ask
    (.directory (.setMemberRole bound.organizationId r.userId r.role)) next
    ∧ ∀ answer, IsOver (next answer)

/-- A request without an organization has ended before it starts. -/
theorem isOver_of_unbound (h : r.ctx.organization = none) :
    IsOver r.program := by
  unfold program Handler.changeRole Handler.boundOrganization
    RequestContext.requireOrganization
  rw [h]
  exact ⟨_, rfl⟩

/-- A bound request reads the members, and then writes or is over. -/
theorem program_of_bound (h : r.ctx.organization = some bound) :
    ∃ next,
      r.program = .ask (.directory (.listMembers bound.organizationId)) next
      ∧ ∀ members : List Member,
        (r.Writes bound members → r.IsWriting bound (next (Except.ok members)))
          ∧ (¬r.Writes bound members → IsOver (next (Except.ok members))) := by
  unfold program Handler.changeRole Handler.boundOrganization
    RequestContext.requireOrganization
  rw [h]
  refine ⟨_, rfl, fun members => ?_⟩
  -- What follows the listing, on what it gave.
  show (r.Writes bound members → r.IsWriting bound
      (Handler.require (.notFound "Member not found")
        (members.find? fun m => m.userId == r.userId) >>= _).run)
    ∧ (¬r.Writes bound members → IsOver
      (Handler.require (.notFound "Member not found")
        (members.find? fun m => m.userId == r.userId) >>= _).run)
  unfold Writes
  cases hfound : members.find? fun m => m.userId == r.userId with
  | none =>
    constructor
    · rintro ⟨_, hfind, -⟩
      cases hfind
    · exact fun _ => ⟨_, rfl⟩
  | some target =>
    by_cases hdenied : (r.role = .owner ∨ target.role = .owner)
        ∧ (!Handler.speaksAsOwner r.ctx bound) = true
    · refine ⟨?_, fun _ => ?_⟩
      · rintro ⟨_, hfind, hmay⟩
        cases hfind
        rw [hmay hdenied.1] at hdenied
        cases hdenied.2
      · show IsOver (ExceptT.run (if _ then _ else _))
        rw [if_pos hdenied]
        exact ⟨_, rfl⟩
    · refine ⟨fun _ => ?_, fun hnot => ?_⟩
      · show r.IsWriting bound (ExceptT.run (if _ then _ else _))
        rw [if_neg hdenied]
        refine ⟨_, rfl, fun answer => ?_⟩
        cases answer with
        | error e => exact ⟨_, rfl⟩
        | ok change => cases change <;> exact ⟨_, rfl⟩
      · refine absurd ⟨target, rfl, fun htouches => ?_⟩ hnot
        by_contra hspeaks
        exact hdenied ⟨htouches, by simpa using hspeaks⟩

end RoleRequest

-- ======================================================= side by side

/-- Requests that are served side by side, from a directory on. -/
structure RoleRequests (ι τ : Type) where
  request : ι → RoleRequest
  server : World Sql.serverInterface τ
  start : MemoryDirectory × τ

namespace RoleRequests

open RoleRequest

variable {ι τ : Type} [DecidableEq ι] {S : RoleRequests ι τ}
  {before first later : List ι} {i : ι} {bound : OrganizationContext}

/-- The requests, and what they work on, behind the turns of a schedule. -/
def behind (S : RoleRequests ι τ) (schedule : List ι) :
    (ι → ApiProgram (Except Refusal Member)) × (MemoryDirectory × τ) :=
  interleave (World.turns (ApiProgram.world MemoryDirectory.answer S.server))
    (fun i => (S.request i).program, S.start) schedule

/-- The directory behind a schedule. -/
def directory (S : RoleRequests ι τ) (schedule : List ι) : MemoryDirectory :=
  (S.behind schedule).2.1

/-- A schedule is made in two parts, one behind the other. -/
theorem behind_append (S : RoleRequests ι τ) (before later : List ι) :
    S.behind (before ++ later)
      = interleave
        (World.turns (ApiProgram.world MemoryDirectory.answer S.server))
          (S.behind before) later :=
  interleave_append

/-- The last turn is made behind all others. -/
theorem behind_snoc :
    S.behind (before ++ [i])
      = advance
        (World.turns (ApiProgram.world MemoryDirectory.answer S.server))
          (S.behind before) i :=
  interleave_snoc

/-- A request without a turn has not started. -/
theorem program_of_notMem (h : i ∉ before) :
    (S.behind before).1 i = (S.request i).program :=
  interleave_of_idle fun _ hturn hwho => h (hwho ▸ hturn)

/-- A request without another turn does not go on. -/
theorem program_of_notMem_later (h : i ∉ later) :
    (S.behind (before ++ later)).1 i = (S.behind before).1 i := by
  rw [behind_append]
  exact interleave_of_idle fun _ hturn hwho => h (hwho ▸ hturn)

/-- A request that has ended stays so. -/
theorem isOver_append (h : IsOver ((S.behind before).1 i)) :
    IsOver ((S.behind (before ++ later)).1 i) := by
  obtain ⟨result, hdone⟩ := h
  rw [behind_append]
  exact ⟨result, interleave_of_done hdone⟩

/-- The turn of a request that has ended changes nothing. -/
theorem directory_of_over (h : IsOver ((S.behind before).1 i)) :
    S.directory (before ++ [i]) = S.directory before := by
  obtain ⟨result, hdone⟩ := h
  unfold directory
  rw [behind_snoc, advance_of_done hdone]

/-- The first turn of a bound request is its listing. -/
theorem turn_listing (hfirst : i ∉ first)
    (hbound : (S.request i).ctx.organization = some bound) :
    S.directory (first ++ [i]) = S.directory first
      ∧ ((S.request i).Writes bound
        ((S.directory first).membersOf bound.organizationId) →
          (S.request i).IsWriting bound ((S.behind (first ++ [i])).1 i))
      ∧ (¬(S.request i).Writes bound
        ((S.directory first).membersOf bound.organizationId) →
          IsOver ((S.behind (first ++ [i])).1 i)) := by
  obtain ⟨next, hprogram, hnext⟩ := program_of_bound hbound
  have hask := (program_of_notMem hfirst).trans hprogram
  have hturn := behind_snoc.trans (advance_at_once hask)
  have hlisted : (S.behind (first ++ [i])).1 i
      = next
        (Except.ok ((S.directory first).membersOf bound.organizationId)) := by
    rw [hturn]
    exact Function.update_self _ _ _
  have hdirectory : S.directory (first ++ [i]) = S.directory first :=
    congrArg (·.2.1) hturn
  rw [hlisted]
  exact ⟨hdirectory, hnext _⟩

/-- A request that is writing changes the role, and is over. -/
theorem turn_writing
    (h : (S.request i).IsWriting bound ((S.behind before).1 i)) :
    S.directory (before ++ [i])
        = ((S.directory before).changeRole bound.organizationId
          (S.request i).userId
            (S.request i).role).2
      ∧ IsOver ((S.behind (before ++ [i])).1 i) := by
  obtain ⟨next, hask, hover⟩ := h
  have hturn := behind_snoc.trans (advance_at_once hask)
  have hwritten : (S.behind (before ++ [i])).1 i
      = next (Except.ok ((S.directory before).changeRole bound.organizationId
          (S.request i).userId (S.request i).role).1) := by
    rw [hturn]
    exact Function.update_self _ _ _
  rw [hwritten]
  exact ⟨congrArg (·.2.1) hturn, hover _⟩

/-- Two turns in the life of a request: it has listed the members at its first
one, and at its second one writes, which is next. -/
structure AboutToWrite (S : RoleRequests ι τ) (before : List ι) (i : ι)
    (bound : OrganizationContext) (first : List ι) : Prop where
  organization : (S.request i).ctx.organization = some bound
  turns : ∃ later, before = first ++ i :: later ∧ i ∉ first ∧ i ∉ later
  writes : (S.request i).Writes bound
    ((S.directory first).membersOf bound.organizationId)

/-- A request that is about to write has its decision behind it. -/
theorem AboutToWrite.isWriting (h : S.AboutToWrite before i bound first) :
    (S.request i).IsWriting bound ((S.behind before).1 i) := by
  obtain ⟨later, rfl, hfirst, hlater⟩ := h.turns
  obtain ⟨-, hwriting, -⟩ := turn_listing hfirst h.organization
  rw [List.append_cons, program_of_notMem_later hlater]
  exact hwriting h.writes

/-- Nothing changes the directory but a request that is about to write. -/
theorem directory_snoc_cases (S : RoleRequests ι τ) (before : List ι) (i : ι) :
    S.directory (before ++ [i]) = S.directory before
      ∨ ∃ bound first, S.AboutToWrite before i bound first := by
  cases hbound : (S.request i).ctx.organization with
  | none =>
    have hstart : IsOver ((S.behind []).1 i) := isOver_of_unbound hbound
    exact .inl (directory_of_over (isOver_append hstart))
  | some bound =>
    by_cases hmem : i ∈ before
    · obtain ⟨first, later, rfl, hfirst⟩ := List.eq_append_cons_of_mem hmem
      obtain ⟨-, hwriting, hover⟩ := turn_listing hfirst hbound
      by_cases hwrites : (S.request i).Writes bound
          ((S.directory first).membersOf bound.organizationId)
      · by_cases hlater : i ∈ later
        · -- It has had the turn of its write as well.
          obtain ⟨between, rest, rfl, hbetween⟩ :=
            List.eq_append_cons_of_mem hlater
          have habout : S.AboutToWrite (first ++ i :: between) i bound first :=
            ⟨hbound, ⟨between, rfl, hfirst, hbetween⟩, hwrites⟩
          obtain ⟨-, hdone⟩ := turn_writing habout.isWriting
          refine .inl (directory_of_over ?_)
          have hsplit : first ++ i :: (between ++ i :: rest)
              = (first ++ i :: between ++ [i]) ++ rest := by simp
          rw [hsplit]
          exact isOver_append hdone
        · exact .inr
            ⟨bound, first, hbound, ⟨later, rfl, hfirst, hlater⟩, hwrites⟩
      · refine .inl (directory_of_over ?_)
        rw [List.append_cons]
        exact isOver_append (hover hwrites)
    · exact .inl (turn_listing hmem hbound).1

-- ========================================================== ownership

/-- In the run of a schedule, whatever changes ownership speaks as an owner. -/
def OwnersDecide (S : RoleRequests ι τ) (schedule : List ι) : Prop :=
  ∀ before i, before ++ [i] <+: schedule →
    (S.directory before).ChangesOwnership (S.directory (before ++ [i])) →
      (S.request i).SpeaksAsOwner

/-- A request that does not speak as an owner has found its target without
ownership, and is about to write another role without it; but by now the
target is an owner, and not the only one. -/
structure Overtaken (S : RoleRequests ι τ) (before : List ι) (i : ι)
    (bound : OrganizationContext) (first : List ι) : Prop where
  organization : (S.request i).ctx.organization = some bound
  turns : ∃ later, before = first ++ i :: later ∧ i ∉ first ∧ i ∉ later
  notOwner : ¬(S.request i).SpeaksAsOwner
  listed : ∃ target, ((S.directory first).membersOf bound.organizationId).find?
    (fun m => m.userId == (S.request i).userId) = some target
      ∧ target.role ≠ .owner
  role : (S.request i).role ≠ .owner
  owner :
    (S.directory before).IsOwner bound.organizationId (S.request i).userId
  others : 1 < (S.directory before).ownerCount bound.organizationId

/-- A request that was overtaken is one that was about to write. -/
theorem AboutToWrite.ofOvertaken (h : S.Overtaken before i bound first) :
    S.AboutToWrite before i bound first := by
  obtain ⟨target, hfind, htarget⟩ := h.listed
  refine ⟨h.organization, h.turns, target, hfind, fun htouches => ?_⟩
  rcases htouches with hrole | hrole
  · exact absurd hrole h.role
  · exact absurd hrole htarget

/-- Ownership is changed by a request that does not speak as an owner exactly
where it is overtaken. -/
theorem changes_without_owner_iff :
    ((S.directory before).ChangesOwnership (S.directory (before ++ [i]))
        ∧ ¬(S.request i).SpeaksAsOwner)
      ↔ ∃ bound first, S.Overtaken before i bound first := by
  constructor
  · rintro ⟨hchange, hspeaks⟩
    rcases S.directory_snoc_cases before i with hsame | ⟨bound, first, habout⟩
    · rw [hsame] at hchange
      exact absurd hchange not_changesOwnership_self
    obtain ⟨target, hfind, hmay⟩ := habout.writes
    have hnot : ¬Handler.speaksAsOwner (S.request i).ctx bound = true :=
      fun hbound => hspeaks ⟨bound, habout.organization, hbound⟩
    have hrole : (S.request i).role ≠ .owner :=
      fun hrole => hnot (hmay (.inl hrole))
    have htarget : target.role ≠ .owner :=
      fun hrole => hnot (hmay (.inr hrole))
    rw [(turn_writing habout.isWriting).1, changesOwnership_changeRole]
      at hchange
    rcases hchange with ⟨howner, -, hothers⟩ | ⟨-, -, hgrants⟩
    · exact ⟨bound, first, habout.organization, habout.turns, hspeaks,
        ⟨target, hfind, htarget⟩, hrole, howner, hothers⟩
    · exact absurd hgrants hrole
  · rintro ⟨bound, first, hovertaken⟩
    refine ⟨?_, hovertaken.notOwner⟩
    rw [(turn_writing (AboutToWrite.ofOvertaken hovertaken).isWriting).1,
      changesOwnership_changeRole]
    exact .inl ⟨hovertaken.owner, hovertaken.role, hovertaken.others⟩

/-- However requests are interleaved: whatever changes ownership speaks as an
owner, if and only if no request is overtaken. -/
theorem ownersDecide_iff (S : RoleRequests ι τ) (schedule : List ι) :
    S.OwnersDecide schedule ↔
      ∀ before i, before ++ [i] <+: schedule →
        ∀ bound first, ¬S.Overtaken before i bound first := by
  constructor
  · intro h before i hturn bound first hovertaken
    obtain ⟨hchange, hspeaks⟩ :=
      changes_without_owner_iff.2 ⟨bound, first, hovertaken⟩
    exact hspeaks (h before i hturn hchange)
  · intro h before i hturn hchange
    by_contra hspeaks
    obtain ⟨bound, first, hovertaken⟩ :=
      changes_without_owner_iff.1 ⟨hchange, hspeaks⟩
    exact h before i hturn bound first hovertaken

/-- Memberships stay unique behind every schedule. -/
theorem uniqueMemberships_directory (hunique : S.start.1.UniqueMemberships)
    (schedule : List ι) : (S.directory schedule).UniqueMemberships := by
  induction schedule using List.reverseRecOn with
  | nil => exact hunique
  | append_singleton before i ih =>
    rcases S.directory_snoc_cases before i with hsame | ⟨bound, first, habout⟩
    · rw [hsame]
      exact ih
    · rw [(turn_writing habout.isWriting).1]
      exact ih.changeRole

/-- If nobody has two memberships in one organization, a request is overtaken
by one that speaks as an owner and makes its target an owner. -/
theorem granted_of_overtaken (hunique : S.start.1.UniqueMemberships)
    (h : S.Overtaken before i bound first) :
    ∃ between j rest, before = first ++ i :: (between ++ j :: rest)
      ∧ (S.request j).SpeaksAsOwner
      ∧ ¬(S.directory (first ++ i :: between)).IsOwner bound.organizationId
        (S.request i).userId
      ∧ (S.directory (first ++ i :: between ++ [j])).IsOwner
        bound.organizationId
          (S.request i).userId := by
  obtain ⟨later, rfl, hfirst, hlater⟩ := h.turns
  obtain ⟨target, hfind, htarget⟩ := h.listed
  have hlisted : ¬(S.directory (first ++ [i])).IsOwner bound.organizationId
      (S.request i).userId := by
    rw [(turn_listing hfirst h.organization).1]
    rintro ⟨row, hrow, howner⟩
    obtain ⟨row', hrow', hrole⟩ :=
      role_of_listed (uniqueMemberships_directory hunique first) hfind
    cases hrow.symm.trans hrow'
    exact htarget (hrole.symm.trans howner)
  -- Between its listing and its write the target has become an owner, at some
  -- turn.
  have hend :
      (interleave
        (World.turns (ApiProgram.world MemoryDirectory.answer S.server))
      (S.behind (first ++ [i])) later).2.1.IsOwner bound.organizationId
        (S.request i).userId := by
    rw [← behind_append, ← List.append_cons]
    exact h.owner
  obtain ⟨between, j, rest, rfl, hearlier, hthen⟩ := exists_turn
    (fun st : (ι → ApiProgram (Except Refusal Member))
      × (MemoryDirectory × τ) =>
      st.2.1.IsOwner bound.organizationId (S.request i).userId) hlisted hend
  have hbefore :
      ¬(S.directory (first ++ i :: between)).IsOwner bound.organizationId
        (S.request i).userId := by
    rwa [← behind_append, ← List.append_cons] at hearlier
  have hafter :
      (S.directory (first ++ i :: between ++ [j])).IsOwner bound.organizationId
        (S.request i).userId := by
    rwa [← behind_append, ← List.append_assoc, ← List.append_cons] at hthen
  refine ⟨between, j, rest, rfl, ?_, hbefore, hafter⟩
  rcases S.directory_snoc_cases (first ++ i :: between) j with
    hsame | ⟨bound', first', habout⟩
  · exact absurd (hsame ▸ hafter) hbefore
  · have hgranted :
        ((S.directory (first ++ i :: between)).changeRole bound'.organizationId
            (S.request j).userId (S.request j).role).2.IsOwner
          bound.organizationId (S.request i).userId := by
      rw [← (turn_writing habout.isWriting).1]
      exact hafter
    obtain ⟨-, -, hrole⟩ := granted_of_changeRole hbefore hgranted
    obtain ⟨_, -, hmay⟩ := habout.writes
    exact ⟨bound', habout.organization, hmay (.inl hrole)⟩

-- An admin makes a member a viewer, and an owner makes the same member an
-- owner.

/-- The users of the example. -/
def acmeUser (n : Nat) : User := ⟨.ofNat n, "", "", .member, "", true, ⟨0, 0⟩⟩

/-- An organization of an owner, an admin and others. -/
def acmeDirectory (others : List MembershipRow) : MemoryDirectory where
  users := [acmeUser 2, acmeUser 3, acmeUser 4]
  organizations := []
  memberships :=
    ⟨.ofNat 2, .ofNat 1, .owner, ⟨0, 0⟩⟩
      :: ⟨.ofNat 3, .ofNat 1, .admin, ⟨1, 0⟩⟩ :: others

/-- A member's request in the one organization. -/
def acmeContext (n : Nat) (role : OrgRole) : RequestContext where
  caller := .ofUser (acmeUser n) []
  organization := some ⟨.ofNat 1, some role, .basic⟩

/-- The admin's request, and the owner's. -/
def acmeRequests (others : List MembershipRow) : RoleRequests Bool Unit where
  request
    | false => ⟨acmeContext 3 .admin, .ofNat 4, .viewer⟩
    | true => ⟨acmeContext 2 .owner, .ofNat 4, .owner⟩
  server := fun _ s => (.error .poolClosed, s)
  start := (acmeDirectory others, ())

/-- The row of the member whose role is changed. -/
def acmeRow (role : OrgRole) (joinedAt : Int) : MembershipRow :=
  ⟨.ofNat 4, .ofNat 1, role, ⟨joinedAt, 0⟩⟩

/-- Between the admin's decision and the admin's write the owner's request
runs, and the write takes ownership away. -/
theorem not_ownersDecide_acme {others : List MembershipRow}
    (before : List Bool)
    (howner : ((acmeRequests others).directory before).membership? (.ofNat 1)
      (.ofNat 4)
      = some (acmeRow .owner 3))
    (hviewer :
      ((acmeRequests others).directory (before ++ [false])).membership?
        (.ofNat 1)
      (.ofNat 4) = some (acmeRow .viewer 3)) :
    ¬(acmeRequests others).OwnersDecide (before ++ [false]) := by
  intro h
  have hchange : ((acmeRequests others).directory before).ChangesOwnership
      ((acmeRequests others).directory (before ++ [false])) := by
    refine ⟨.ofNat 1, .ofNat 4, fun hsame => ?_⟩
    obtain ⟨row, hrow, hrole⟩ := hsame.1 ⟨_, howner, rfl⟩
    cases hviewer.symm.trans hrow
    cases hrole
  obtain ⟨bound, hbound, hspeaks⟩ := h before false List.prefix_rfl hchange
  cases hbound
  cases hspeaks

/-- The admin lists the member, the owner's request is served from its listing
to its write, and the admin's write revokes the ownership. So does a single
request, if the one it is about has two memberships and is listed by the
other one. -/
theorem admin_revokes_ownership :
    ((acmeRequests [acmeRow .member 3]).start.1.UniqueMemberships
        ∧ ¬(acmeRequests [acmeRow .member 3]).OwnersDecide
          [false, true, true, false])
      ∧ ¬(acmeRequests [acmeRow .owner 3, acmeRow .member 2]).OwnersDecide
        [false, false] := by
  refine ⟨⟨?_, ?_⟩, ?_⟩
  · unfold UniqueMemberships
    decide +kernel
  · exact not_ownersDecide_acme [false, true, true] (by cbv) (by cbv)
  · exact not_ownersDecide_acme [false] (by cbv) (by cbv)

end RoleRequests

end Tenancy
