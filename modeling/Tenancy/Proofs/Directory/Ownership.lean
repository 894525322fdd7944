/-
Ownership in the directory in memory. A change of role sets the role of
one membership, the first of the user in the organization, and no other
(`membership?_setRole`); so it changes the ownership of that one at most,
and exactly when it grants what was not there, or revokes what was there
while the organization has another owner (`changesOwnership_changeRole`).

That a member is listed with the role of this membership takes more: the
list is in the order of time, so a user with two memberships may be
listed with the other one first (`role_of_listed`).
-/
import Mathlib.Data.List.Nodup
import Tenancy.Directory.Memory

namespace Tenancy.MemoryDirectory

variable {d d' : MemoryDirectory} {organizationId userId : Uuid}
  {role : OrgRole}

-- ============================================================== lists

section changeFirst

variable {α β : Type} {test other : α → Bool} {change : α → α} {l : List α}

/-- What is found is changed, if the change is none to the test. -/
theorem find?_changeFirst (hkeeps : ∀ a, test (change a) = test a) :
    (changeFirst test change l).find? test = (l.find? test).map change := by
  induction l with
  | nil => rfl
  | cons a rest ih =>
    unfold changeFirst
    by_cases ha : test a = true
    · rw [if_pos ha, List.find?_cons_of_pos ((hkeeps a).trans ha),
        List.find?_cons_of_pos ha]
      rfl
    · rw [if_neg ha, List.find?_cons_of_neg ha, List.find?_cons_of_neg ha]
      exact ih

/-- What passes a test that excludes the first one is found as before. -/
theorem find?_changeFirst_of_ne (hne : ∀ a, test a = true → other a = false)
    (hkeeps : ∀ a, other (change a) = other a) :
    (changeFirst test change l).find? other = l.find? other := by
  induction l with
  | nil => rfl
  | cons a rest ih =>
    unfold changeFirst
    by_cases ha : test a = true
    · have hother : ¬other a = true := by simp [hne a ha]
      have hchanged : ¬other (change a) = true := by rwa [hkeeps a]
      rw [if_pos ha, List.find?_cons_of_neg hchanged,
        List.find?_cons_of_neg hother]
    · rw [if_neg ha]
      by_cases hother : other a = true
      · rw [List.find?_cons_of_pos hother, List.find?_cons_of_pos hother]
      · rw [List.find?_cons_of_neg hother, List.find?_cons_of_neg hother]
        exact ih

/-- What a change keeps it keeps of every element. -/
theorem map_changeFirst {f : α → β} (hkeeps : ∀ a, f (change a) = f a) :
    (changeFirst test change l).map f = l.map f := by
  induction l with
  | nil => rfl
  | cons a rest ih =>
    unfold changeFirst
    split
    · rw [List.map_cons, List.map_cons, hkeeps a]
    · rw [List.map_cons, List.map_cons, ih]

/-- Without such an element nothing is changed. -/
theorem changeFirst_of_forall_not (h : ∀ a ∈ l, ¬test a = true) :
    changeFirst test change l = l := by
  induction l with
  | nil => rfl
  | cons a rest ih =>
    unfold changeFirst
    rw [if_neg (h a List.mem_cons_self),
      ih fun b hb => h b (List.mem_cons_of_mem a hb)]

/-- The first element that passes the test is changed where it stands. -/
theorem changeFirst_of_find? {a : α} (h : l.find? test = some a)
    (change : α → α) :
    ∃ before after, l = before ++ a :: after
      ∧ changeFirst test change l = before ++ change a :: after := by
  induction l with
  | nil => cases h
  | cons b rest ih =>
    by_cases hb : test b = true
    · rw [List.find?_cons_of_pos hb] at h
      cases h
      refine ⟨[], rest, rfl, ?_⟩
      unfold changeFirst
      rw [if_pos hb]
      rfl
    · rw [List.find?_cons_of_neg hb] at h
      obtain ⟨before, after, hrest, hchange⟩ := ih h
      refine ⟨b :: before, after, by rw [hrest]; rfl, ?_⟩
      unfold changeFirst
      rw [if_neg hb, hchange]
      rfl

end changeFirst

-- ======================================================== memberships

/-- Everybody has one membership in an organization at most. -/
def UniqueMemberships (d : MemoryDirectory) : Prop :=
  (d.memberships.map fun row => (row.organizationId, row.userId)).Nodup

/-- A row ties its own user to its own organization. -/
theorem ties_iff {row : MembershipRow} :
    row.ties organizationId userId = true ↔
      row.organizationId = organizationId ∧ row.userId = userId := by
  unfold MembershipRow.ties
  simp

theorem ties_of_membership? {row : MembershipRow}
    (h : d.membership? organizationId userId = some row) :
    row.ties organizationId userId = true := by
  unfold membership? at h
  have hties := List.find?_some h
  exact hties

/-- A membership that is there has the role that is set. -/
theorem membership?_setRole :
    (d.setRole organizationId userId role).membership? organizationId userId
      = (d.membership? organizationId userId).map ({ · with role := role }) :=
  find?_changeFirst fun _ => rfl

/-- And every other membership its own. -/
theorem membership?_setRole_of_ne {organizationId' userId' : Uuid}
    (hne : ¬(organizationId = organizationId' ∧ userId = userId')) :
    (d.setRole organizationId userId role).membership? organizationId' userId'
      = d.membership? organizationId' userId' := by
  refine find?_changeFirst_of_ne (fun row hrow => ?_) fun _ => rfl
  obtain ⟨rfl, rfl⟩ := ties_iff.1 hrow
  rw [← Bool.not_eq_true, ties_iff]
  exact hne

/-- Who is in which organization is the same behind a change of role. -/
theorem map_keys_setRole :
    (d.setRole organizationId userId role).memberships.map
        (fun row => (row.organizationId, row.userId))
      = d.memberships.map fun row => (row.organizationId, row.userId) :=
  map_changeFirst fun _ => rfl

/-- Memberships stay unique. -/
theorem UniqueMemberships.changeRole (h : d.UniqueMemberships) :
    (d.changeRole organizationId userId role).2.UniqueMemberships := by
  have hset : (d.setRole organizationId userId role).UniqueMemberships := by
    unfold UniqueMemberships
    rw [map_keys_setRole]
    exact h
  unfold MemoryDirectory.changeRole
  split
  · exact h
  · split
    · exact h
    · exact hset

/-- A listed member has the role of the membership, if there is no other. -/
theorem role_of_listed (hunique : d.UniqueMemberships) {target : Member}
    (h : (d.membersOf organizationId).find? (fun m => m.userId == userId)
      = some target) :
    ∃ row,
      d.membership? organizationId userId = some row
        ∧ row.role = target.role := by
  have htarget : target.userId = userId := by simpa using List.find?_some h
  obtain ⟨row, hrow, hside⟩ :=
    List.mem_filterMap.1 (List.mem_of_find?_eq_some h)
  obtain ⟨hmem, horganization⟩ := List.mem_filter.1 (List.mem_mergeSort.1 hrow)
  unfold organizationSide? at hside
  obtain ⟨u, hu, hside⟩ := Option.bind_eq_some_iff.1 hside
  cases hside
  have hid : u.id = row.userId := by simpa using List.find?_some hu
  have huser : row.userId = userId := hid.symm.trans htarget
  have hties : row.ties organizationId userId = true :=
    ties_iff.2 ⟨by simpa using horganization, huser⟩
  obtain ⟨first, hfirst⟩ :
      ∃ first, d.membership? organizationId userId = some first := by
    rw [← Option.isSome_iff_exists, membership?, List.find?_isSome]
    exact ⟨row, hmem, hties⟩
  obtain ⟨hfirstOrganization, hfirstUser⟩ :=
    ties_iff.1 (ties_of_membership? hfirst)
  obtain ⟨hrowOrganization, hrowUser⟩ := ties_iff.1 hties
  have hsame : first = row := by
    refine List.inj_on_of_nodup_map hunique (List.mem_of_find?_eq_some hfirst)
      hmem ?_
    rw [hfirstOrganization, hfirstUser, hrowOrganization, hrowUser]
  exact ⟨first, hfirst, by rw [hsame]⟩

-- ========================================================== ownership

/-- The membership of a user in an organization is an owner's. -/
def IsOwner (d : MemoryDirectory) (organizationId userId : Uuid) : Prop :=
  ∃ row, d.membership? organizationId userId = some row ∧ row.role = .owner

/-- Some membership becomes an owner's, or is one no longer. -/
def ChangesOwnership (d d' : MemoryDirectory) : Prop :=
  ∃ organizationId userId,
    ¬(d.IsOwner organizationId userId ↔ d'.IsOwner organizationId userId)

/-- Where nothing changes, no ownership does. -/
theorem not_changesOwnership_self : ¬d.ChangesOwnership d := by
  rintro ⟨_, _, hchange⟩
  exact hchange .rfl

/-- A member is an owner if that is the role that is set. -/
theorem isOwner_setRole :
    (d.setRole organizationId userId role).IsOwner organizationId userId ↔
      (d.membership? organizationId userId).isSome = true ∧ role = .owner := by
  unfold IsOwner
  rw [membership?_setRole]
  cases d.membership? organizationId userId <;> simp

/-- And everyone else is one as before. -/
theorem isOwner_setRole_of_ne {organizationId' userId' : Uuid}
    (hne : ¬(organizationId = organizationId' ∧ userId = userId')) :
    (d.setRole organizationId userId role).IsOwner organizationId' userId' ↔
      d.IsOwner organizationId' userId' := by
  unfold IsOwner
  rw [membership?_setRole_of_ne hne]

/-- A role is set unless that left the organization without an owner. -/
theorem changeRole_cases (d : MemoryDirectory) (organizationId userId : Uuid)
    (role : OrgRole) :
    ((d.changeRole organizationId userId role).2 = d
        ∧ (d.IsOwner organizationId userId → role ≠ .owner →
          d.ownerCount organizationId ≤ 1)
        ∧ ((d.membership? organizationId userId).isSome = true →
            d.IsOwner organizationId userId))
      ∨ (d.changeRole organizationId userId role).2
        = d.setRole organizationId userId role
        ∧ (d.IsOwner organizationId userId → role ≠ .owner →
          1 < d.ownerCount organizationId) := by
  unfold changeRole IsOwner
  cases hrow : d.membership? organizationId userId with
  | none => exact .inl ⟨rfl, by simp, by simp⟩
  | some row =>
    by_cases hlast : row.role = .owner ∧ role ≠ .owner
      ∧ d.ownerCount organizationId ≤ 1
    · refine .inl ?_
      dsimp only
      rw [if_pos hlast]
      exact ⟨rfl, fun _ _ => hlast.2.2, fun _ => ⟨row, rfl, hlast.1⟩⟩
    · refine .inr ?_
      dsimp only
      rw [if_neg hlast]
      refine ⟨rfl, ?_⟩
      rintro ⟨row', hrow', howner⟩ hrole
      cases hrow'
      exact Nat.lt_of_not_le fun hcount => hlast ⟨howner, hrole, hcount⟩

/-- Ownership is changed by what grants it anew, and by what revokes it while
there is another owner. -/
theorem changesOwnership_changeRole :
    d.ChangesOwnership (d.changeRole organizationId userId role).2 ↔
      (d.IsOwner organizationId userId ∧ role ≠ .owner
        ∧ 1 < d.ownerCount organizationId)
        ∨ (d.membership? organizationId userId).isSome = true
          ∧ ¬d.IsOwner organizationId userId ∧ role = .owner := by
  rcases changeRole_cases d organizationId userId role with
    ⟨hsame, hlast, hmember⟩ | ⟨hset, hmore⟩
  · rw [hsame]
    refine ⟨fun h => absurd h not_changesOwnership_self, ?_⟩
    rintro (⟨howner, hrole, hcount⟩ | ⟨hsome, hnot, -⟩)
    · exact absurd (hlast howner hrole) (Nat.not_le_of_lt hcount)
    · exact absurd (hmember hsome) hnot
  · rw [hset]
    constructor
    · rintro ⟨organizationId', userId', hchange⟩
      by_cases hone : organizationId = organizationId' ∧ userId = userId'
      · obtain ⟨rfl, rfl⟩ := hone
        rw [isOwner_setRole] at hchange
        by_cases howner : d.IsOwner organizationId userId
        · have hsome :
              (d.membership? organizationId userId).isSome = true := by
            obtain ⟨row, hrow, -⟩ := howner
            rw [hrow]
            rfl
          have hrole : role ≠ .owner :=
            fun hrole => hchange ⟨fun _ => ⟨hsome, hrole⟩, fun _ => howner⟩
          exact .inl ⟨howner, hrole, hmore howner hrole⟩
        · refine .inr ?_
          by_contra hnot
          refine hchange
            ⟨fun h => absurd h howner, fun h => absurd ⟨h.1, howner, h.2⟩ hnot⟩
      · exact absurd (isOwner_setRole_of_ne hone).symm hchange
    · rintro (⟨howner, hrole, -⟩ | ⟨hsome, hnot, hrole⟩)
      · refine ⟨organizationId, userId, fun hsame => hrole ?_⟩
        exact (isOwner_setRole.1 (hsame.1 howner)).2
      · refine ⟨organizationId, userId, fun hsame => hnot ?_⟩
        exact hsame.2 (isOwner_setRole.2 ⟨hsome, hrole⟩)

/-- Only a grant to that user makes a user an owner. -/
theorem granted_of_changeRole {organizationId' userId' : Uuid}
    (hbefore : ¬d.IsOwner organizationId' userId')
    (hafter : (d.changeRole organizationId userId role).2.IsOwner
      organizationId' userId') :
    organizationId = organizationId' ∧ userId = userId' ∧ role = .owner := by
  rcases changeRole_cases d organizationId userId role with
    ⟨hsame, -, -⟩ | ⟨hset, -⟩
  · rw [hsame] at hafter
    exact absurd hafter hbefore
  · rw [hset] at hafter
    by_cases hone : organizationId = organizationId' ∧ userId = userId'
    · obtain ⟨rfl, rfl⟩ := hone
      exact ⟨rfl, rfl, (isOwner_setRole.1 hafter).2⟩
    · exact absurd ((isOwner_setRole_of_ne hone).1 hafter) hbefore

end Tenancy.MemoryDirectory
