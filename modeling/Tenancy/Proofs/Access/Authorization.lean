/-
What a successful authorization has seen. Each step of it either refuses
or leaves something behind: a token that was verified, the active user
it names with the memberships read for this very request, and the
organization that was selected. The lemmas here say for each step, in
any directory and from any state of it, exactly when it succeeds and
with what.
-/
import Tenancy.Access.Authorize
import Tenancy.Proofs.Outcome

namespace Tenancy

open Http Program

variable {σ : Type} {world : Program.World directoryInterface σ} {s s' : σ}

namespace AccessProgram

theorem succeeds_ask {call : DirectoryCall} {a : call.Result} :
    Succeeds world (ask call) s a s' ↔ world call s = (.ok a, s') := by
  have hrun : (ask call).run.run world s
      = ((world call s).1.mapError .directory, (world call s).2) :=
    rfl
  unfold Succeeds
  rw [hrun]
  cases h : world call s with
  | mk answer s₁ =>
    cases answer with
    | error e =>
      constructor
      · intro hok
        cases hok
      · intro hok
        cases hok
    | ok b =>
      constructor
      · intro hok
        cases hok
        rfl
      · intro hok
        cases hok
        rfl

theorem succeeds_require {α : Type} {reason : Denial} {x : Option α} {a : α} :
    Succeeds world (require reason x) s a s' ↔ x = some a ∧ s = s' := by
  cases x with
  | none => exact ⟨fun h => absurd h not_succeeds_throw, fun h => nomatch h.1⟩
  | some b =>
    unfold require
    rw [succeeds_pure]
    simp

end AccessProgram

namespace Gate

open AccessProgram

/-- The caller is the active user that a verified token names, with the
memberships read just now. -/
theorem succeeds_identify {gate : Gate} {now : Int} {token : Option String}
    {caller : Caller} : Succeeds world (gate.identify now token) s caller s' ↔
      ∃ text claims user memberships s₁, token = some text
        ∧ gate.tokens.verify now text = .ok claims
        ∧ world (.findUser claims.subject) s = (.ok (some user), s₁)
        ∧ user.isActive = true
        ∧ world (.membershipsFor user.id) s₁ = (.ok memberships, s')
        ∧ caller = .ofUser user memberships := by
  constructor
  · intro h
    obtain ⟨text, _, hstep, h⟩ := succeeds_bind.1 h
    obtain ⟨htoken, rfl⟩ := succeeds_require.1 hstep
    obtain ⟨claims, _, hstep, h⟩ := succeeds_bind.1 h
    obtain ⟨hclaims, rfl⟩ := succeeds_require.1 hstep
    obtain ⟨found, s₁, hfound, h⟩ := succeeds_bind.1 h
    obtain ⟨user, _, hstep, h⟩ := succeeds_bind.1 h
    obtain ⟨huser, rfl⟩ := succeeds_require.1 hstep
    obtain ⟨memberships, _, hmemberships, h⟩ := succeeds_bind.1 h
    obtain ⟨rfl, rfl⟩ := succeeds_pure.1 h
    obtain ⟨rfl, hactive⟩ := Option.filter_eq_some_iff.1 huser
    have hverified : gate.tokens.verify now text = .ok claims := by
      cases hverify : gate.tokens.verify now text with
      | error e =>
        rw [hverify] at hclaims
        cases hclaims
      | ok verified =>
        rw [hverify] at hclaims
        cases hclaims
        rfl
    exact ⟨text, claims, user, memberships, s₁, htoken, hverified,
      succeeds_ask.1 hfound, hactive, succeeds_ask.1 hmemberships, rfl⟩
  · rintro ⟨text, claims, user, memberships, s₁, rfl, hverified, hfound,
      hactive, hmemberships, rfl⟩
    refine succeeds_bind.2 ⟨text, s, succeeds_require.2 ⟨rfl, rfl⟩, ?_⟩
    refine succeeds_bind.2
      ⟨claims, s, succeeds_require.2 ⟨by rw [hverified]; rfl, rfl⟩, ?_⟩
    refine succeeds_bind.2 ⟨some user, s₁, succeeds_ask.2 hfound, ?_⟩
    refine succeeds_bind.2
      ⟨user, s₁, succeeds_require.2 ⟨by simp [hactive], rfl⟩, ?_⟩
    exact succeeds_bind.2
      ⟨memberships, s', succeeds_ask.2 hmemberships,
        succeeds_pure.2 ⟨rfl, rfl⟩⟩

/-- A system administrator enters the active organization that the directory
finds, anyone else one that they are a member of. -/
theorem succeeds_enter {caller : Caller} {selector : String}
    {organization : OrganizationContext} :
    Succeeds world (enter caller selector) s organization s' ↔
      ∃ id, Uuid.ofString? selector = some id
        ∧ ((caller.isSuperAdmin = true
              ∧ ∃ found,
                world (.findOrganization id) s = (.ok (some found), s')
                ∧ organization
                  = ⟨found.id,
                    (caller.membershipIn? found.id).map Membership.role,
                    found.tier⟩)
          ∨ (caller.isSuperAdmin = false ∧ s = s'
              ∧ ∃ membership, caller.membershipIn? id = some membership
              ∧ organization = .ofMembership membership)) := by
  constructor
  · intro h
    obtain ⟨id, _, hstep, h⟩ := succeeds_bind.1 h
    obtain ⟨hid, rfl⟩ := succeeds_require.1 hstep
    refine ⟨id, hid, ?_⟩
    cases hadmin : caller.isSuperAdmin with
    | true =>
      left
      simp only [hadmin, if_true] at h
      obtain ⟨answer, s₁, hanswer, h⟩ := succeeds_bind.1 h
      obtain ⟨found, _, hfound, h⟩ := succeeds_bind.1 h
      obtain ⟨rfl, rfl⟩ := succeeds_require.1 hfound
      obtain ⟨rfl, rfl⟩ := succeeds_pure.1 h
      exact ⟨rfl, found, succeeds_ask.1 hanswer, rfl⟩
    | false =>
      right
      simp only [hadmin] at h
      obtain ⟨membership, _, hstep, h⟩ := succeeds_bind.1 h
      obtain ⟨hmembership, rfl⟩ := succeeds_require.1 hstep
      obtain ⟨rfl, rfl⟩ := succeeds_pure.1 h
      exact ⟨rfl, rfl, membership, hmembership, rfl⟩
  · rintro ⟨id, hid, hentered⟩
    refine succeeds_bind.2 ⟨id, s, succeeds_require.2 ⟨hid, rfl⟩, ?_⟩
    rcases hentered with
      ⟨hadmin, found, hfound, rfl⟩ | ⟨hadmin, rfl, membership, hmembership,
        rfl⟩
    · simp only [hadmin, if_true]
      refine succeeds_bind.2 ⟨some found, s', succeeds_ask.2 hfound, ?_⟩
      exact succeeds_bind.2
        ⟨found, s', succeeds_require.2 ⟨rfl, rfl⟩, succeeds_pure.2 ⟨rfl, rfl⟩⟩
    · simp only [hadmin]
      exact succeeds_bind.2
        ⟨membership, s, succeeds_require.2 ⟨hmembership, rfl⟩,
        succeeds_pure.2 ⟨rfl, rfl⟩⟩

/-- A selected organization is entered; without one only a system
administrator goes on. -/
theorem succeeds_bind_organization {caller : Caller} {selector : Option String}
    {organization : Option OrganizationContext} :
    Succeeds world (Gate.bind caller selector) s organization s' ↔
      (∃ text entered, selector = some text ∧ organization = some entered
          ∧ Succeeds world (enter caller text) s entered s')
      ∨ (selector = none ∧ caller.isSuperAdmin = true ∧ organization = none
        ∧ s = s') := by
  cases selector with
  | some text =>
    constructor
    · intro h
      obtain ⟨entered, _, hentered, h⟩ := succeeds_bind.1 h
      obtain ⟨rfl, rfl⟩ := succeeds_pure.1 h
      exact .inl ⟨text, entered, rfl, rfl, hentered⟩
    · rintro (⟨_, entered, hselector, rfl, hentered⟩ | ⟨hselector, -⟩)
      · cases hselector
        exact succeeds_bind.2
          ⟨entered, s', hentered, succeeds_pure.2 ⟨rfl, rfl⟩⟩
      · cases hselector
  | none =>
    unfold Gate.bind
    cases hadmin : caller.isSuperAdmin with
    | true =>
      constructor
      · intro h
        obtain ⟨rfl, rfl⟩ := succeeds_pure.1 h
        exact .inr ⟨rfl, rfl, rfl, rfl⟩
      · rintro (⟨_, _, hselector, -⟩ | ⟨-, -, rfl, rfl⟩)
        · cases hselector
        · exact succeeds_pure.2 ⟨rfl, rfl⟩
    | false =>
      constructor
      · intro h
        exact absurd h not_succeeds_throw
      · rintro (⟨_, _, hselector, -⟩ | ⟨-, hnot, -⟩)
        · cases hselector
        · cases hnot

/-- A request is authorized if its caller is identified, the organization is
bound that it needs or selects, and the requirement holds of the two. -/
theorem succeeds_authorize {gate : Gate} {now : Int}
    {requirement : Requirement} {headers : Headers}
    {query : Option String} {ctx : RequestContext} :
    Succeeds world (gate.authorize now requirement headers query) s ctx s' ↔
      ∃ s₁,
        Succeeds world (gate.identify now (bearerToken? headers)) s
          ctx.caller s₁
        ∧ (((requirement.scope = .organization
                ∨ (organizationSelector? gate.organizationHeader headers
                  query).isSome = true)
              ∧ Succeeds world (Gate.bind ctx.caller
                  (organizationSelector? gate.organizationHeader headers
                    query))
                s₁ ctx.organization s')
          ∨ (requirement.scope ≠ .organization
              ∧ organizationSelector? gate.organizationHeader headers query
                = none
              ∧ ctx.organization = none ∧ s₁ = s'))
        ∧ Guard.evaluate ctx requirement = .ok () := by
  constructor
  · intro h
    obtain ⟨caller, s₁, hcaller, h⟩ := succeeds_bind.1 h
    obtain ⟨organization, s₂, horganization, h⟩ := succeeds_bind_ite.1 h
    -- What follows the binding: the requirement is checked and the context
    -- given.
    obtain ⟨rfl, rfl, hok⟩ : ctx = ⟨caller, organization⟩ ∧ s₂ = s'
        ∧ Guard.evaluate ctx requirement = .ok () := by
      cases hevaluate : Guard.evaluate ⟨caller, organization⟩ requirement with
      | ok _ =>
        simp only [hevaluate] at h
        obtain ⟨rfl, rfl⟩ := succeeds_pure.1 h
        exact ⟨rfl, rfl, hevaluate⟩
      | error reason =>
        simp only [hevaluate] at h
        exact absurd h not_succeeds_throw
    refine ⟨s₁, hcaller, ?_, hok⟩
    by_cases hbound : requirement.scope = .organization
        ∨ (organizationSelector? gate.organizationHeader headers query).isSome
          = true
    · exact .inl ⟨hbound, (succeeds_if_pos hbound).1 horganization⟩
    · obtain ⟨rfl, rfl⟩ :=
        succeeds_pure.1 ((succeeds_if_neg hbound).1 horganization)
      rw [not_or, Option.not_isSome_iff_eq_none] at hbound
      exact .inr ⟨hbound.1, hbound.2, rfl, rfl⟩
  · obtain ⟨caller, organization⟩ := ctx
    rintro ⟨s₁, hcaller, hbound, hok⟩
    refine succeeds_bind.2
      ⟨caller, s₁, hcaller, succeeds_bind_ite.2 ⟨organization, s', ?_, ?_⟩⟩
    · rcases hbound with
        ⟨hbound, horganization⟩ | ⟨hscope, hselector, rfl, rfl⟩
      · exact (succeeds_if_pos hbound).2 horganization
      · refine (succeeds_if_neg ?_).2 (succeeds_pure.2 ⟨rfl, rfl⟩)
        rw [not_or, Option.not_isSome_iff_eq_none]
        exact ⟨hscope, hselector⟩
    · simp only [hok]
      exact succeeds_pure.2 ⟨rfl, rfl⟩

end Gate

end Tenancy
