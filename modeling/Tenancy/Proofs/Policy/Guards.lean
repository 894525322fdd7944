/-
What the guards go by. Each of them lets a bound request pass or denies
it for one reason, and the reason tells what is missing: a system
administrator, an organization to work in, a role in it, or its tier. A
check of role or tier that finds no organization says so, whatever the
role or the tier would have been.
-/
import Tenancy.Policy.Guard
import Tenancy.Proofs.Outcome

namespace Tenancy

variable {ctx : RequestContext} {requirement : Requirement} {reason : Denial}
  {bound : OrganizationContext}

/-- What is required is the organization that is bound. -/
theorem requireOrganization_eq_ok :
    ctx.requireOrganization = .ok bound ↔ ctx.organization = some bound := by
  unfold RequestContext.requireOrganization
  cases ctx.organization with
  | none => simp
  | some organization => simp

/-- Only its absence is an error. -/
theorem requireOrganization_eq_error :
    ctx.requireOrganization = .error reason ↔
      ctx.organization = none ∧ reason = .organizationContextMissing := by
  unfold RequestContext.requireOrganization
  cases ctx.organization with
  | none => simp [eq_comm]
  | some organization => simp

namespace Guard

-- ============================================================= place

/-- The scope lets a system administrator pass where only administrators may,
and a bound organization where there must be one. -/
theorem checkScope_eq_ok :
    checkScope ctx requirement = .ok () ↔
      (requirement.scope = .adminOnly → ctx.caller.isSuperAdmin = true)
        ∧ (requirement.scope = .organization → ctx.organization ≠ none) := by
  unfold checkScope
  cases hscope : requirement.scope with
  | global => simp
  | adminOnly => cases ctx.caller.isSuperAdmin <;> simp
  | organization =>
    simp only [bind_eq_ok, requireOrganization_eq_ok]
    cases ctx.organization with
    | none => simp
    | some organization => simp [pure_eq_ok]

/-- The scope is refused for lack of the administrator's role, or of an
organization. -/
theorem checkScope_eq_error :
    checkScope ctx requirement = .error reason ↔
      (requirement.scope = .adminOnly ∧ ctx.caller.isSuperAdmin = false
          ∧ reason = .systemAdminRequired)
        ∨ (requirement.scope = .organization ∧ ctx.organization = none
          ∧ reason = .organizationContextMissing) := by
  unfold checkScope
  cases hscope : requirement.scope with
  | global => simp
  | adminOnly => cases ctx.caller.isSuperAdmin <;> simp [eq_comm]
  | organization =>
    simp only [bind_eq_error, requireOrganization_eq_error]
    simp [pure_eq_ok]

-- =============================================================== role

/-- A system administrator needs no role; anyone else needs one of those that
are allowed, in the bound organization. -/
theorem checkRole_eq_ok :
    checkRole ctx requirement = .ok () ↔
      (ctx.caller.isSuperAdmin = false → ∀ allowed ∈ requirement.roles,
        ∃ bound ∈ ctx.organization, ∃ role ∈ bound.role, role ∈ allowed) := by
  unfold checkRole
  cases requirement.roles with
  | none => simp
  | some allowed =>
    cases ctx.caller.isSuperAdmin with
    | true => simp
    | false =>
      simp only [Bool.false_eq_true, if_false, bind_eq_ok,
        requireOrganization_eq_ok]
      cases ctx.organization with
      | none => simp
      | some bound =>
        cases hrole : bound.role with
        | none => simp [hrole, throw_eq_error]
        | some role =>
          by_cases hmem : role ∈ allowed <;>
            simp [hrole, hmem, pure_eq_ok, throw_eq_error]

/-- The role is refused for lack of an organization, or because the one that
the caller has in it is not allowed; the refusal names those that are. -/
theorem checkRole_eq_error :
    checkRole ctx requirement = .error reason ↔
      ctx.caller.isSuperAdmin = false ∧ ∃ allowed ∈ requirement.roles,
        (ctx.organization = none ∧ reason = .organizationContextMissing)
          ∨ ∃ bound ∈ ctx.organization, (∀ role ∈ bound.role, role ∉ allowed)
            ∧ reason = .insufficientRole requirement.allowedRoles := by
  unfold checkRole
  cases requirement.roles with
  | none => simp
  | some allowed =>
    cases ctx.caller.isSuperAdmin with
    | true => simp
    | false =>
      simp only [Bool.false_eq_true, if_false, bind_eq_error,
        requireOrganization_eq_error, requireOrganization_eq_ok]
      cases ctx.organization with
      | none => simp
      | some bound =>
        cases hrole : bound.role with
        | none => simp [hrole, throw_eq_error, eq_comm]
        | some role =>
          by_cases hmem : role ∈ allowed <;>
            simp [hrole, hmem, pure_eq_ok, throw_eq_error, eq_comm]

-- =============================================================== tier

/-- A system administrator is bound by no tier; anyone else needs the
organization's tier to be high enough. -/
theorem checkTier_eq_ok :
    checkTier ctx requirement = .ok () ↔
      (ctx.caller.isSuperAdmin = false → ∀ required ∈ requirement.minTier,
        ∃ bound ∈ ctx.organization, required.rank ≤ bound.tier.rank) := by
  unfold checkTier
  cases requirement.minTier with
  | none => simp
  | some required =>
    cases ctx.caller.isSuperAdmin with
    | true => simp
    | false =>
      simp only [Bool.false_eq_true, if_false, bind_eq_ok,
        requireOrganization_eq_ok]
      cases ctx.organization with
      | none => simp
      | some bound =>
        by_cases hrank : required.rank ≤ bound.tier.rank <;>
          simp [Tier.satisfies, hrank, pure_eq_ok, throw_eq_error]

/-- The tier is refused for lack of an organization, or because its tier is too
low; the refusal names both tiers. -/
theorem checkTier_eq_error :
    checkTier ctx requirement = .error reason ↔
      ctx.caller.isSuperAdmin = false ∧ ∃ required ∈ requirement.minTier,
        (ctx.organization = none ∧ reason = .organizationContextMissing)
          ∨ ∃ bound ∈ ctx.organization, bound.tier.rank < required.rank
            ∧ reason = .insufficientTier required bound.tier := by
  unfold checkTier
  cases requirement.minTier with
  | none => simp
  | some required =>
    cases ctx.caller.isSuperAdmin with
    | true => simp
    | false =>
      simp only [Bool.false_eq_true, if_false, bind_eq_error,
        requireOrganization_eq_error, requireOrganization_eq_ok]
      cases ctx.organization with
      | none => simp
      | some bound =>
        cases Nat.lt_or_ge bound.tier.rank required.rank with
        | inl hbelow =>
          simp [Tier.satisfies, hbelow, Nat.not_le.2 hbelow, throw_eq_error,
            eq_comm]
        | inr hrank =>
          simp [Tier.satisfies, hrank, Nat.not_lt.2 hrank, pure_eq_ok]

-- ================================================================ all

/-- A request passes if scope, role and tier let it pass. -/
theorem evaluate_eq_ok :
    evaluate ctx requirement = .ok () ↔
      checkScope ctx requirement = .ok () ∧ checkRole ctx requirement = .ok ()
        ∧ checkTier ctx requirement = .ok () := by
  unfold evaluate
  simp only [bind_eq_ok, exists_unit]

/-- The first check that denies gives the reason. -/
theorem evaluate_eq_error :
    evaluate ctx requirement = .error reason ↔
      checkScope ctx requirement = .error reason
        ∨ checkScope ctx requirement = .ok ()
          ∧ (checkRole ctx requirement = .error reason
            ∨ checkRole ctx requirement = .ok ()
              ∧ checkTier ctx requirement = .error reason) := by
  unfold evaluate
  simp only [bind_eq_error, exists_unit]

end Guard

end Tenancy
