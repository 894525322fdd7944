/-
Directories that are alike to a user. Of a directory a user may see the
own record and memberships, and of the organizations that those are in
their records, their rows and the people in them (`AlikeTo`). Nothing is
asked of other organizations and other people, not even that both
directories have the same ones: whatever happens to them (`Elsewhere`)
leads to a directory that is alike.

A call about what the user may see (`Visible`) is answered alike by such
directories and leaves them alike (`AlikeTo.answered`). For the one
change among these calls this is because it looks at the rows of one
organization only, and changes one of them.
-/
import Tenancy.Proofs.Access.Isolation
import Tenancy.Proofs.Directory.Ownership

namespace Tenancy.MemoryDirectory

-- ============================================================== lists

section changeFirst

variable {α : Type} {test keep : α → Bool} {change : α → α} {l : List α}

theorem changeFirst_cons_of_pos {a : α} (ha : test a = true) :
    changeFirst test change (a :: l) = change a :: l :=
  if_pos ha

theorem changeFirst_cons_of_neg {a : α} (ha : ¬test a = true) :
    changeFirst test change (a :: l) = a :: changeFirst test change l :=
  if_neg ha

/-- If the first element is kept, it is also the first among those kept. -/
theorem filter_changeFirst (hkeeps : ∀ a, keep (change a) = keep a)
    (himp : ∀ a, test a = true → keep a = true) :
    (changeFirst test change l).filter keep
      = changeFirst test change (l.filter keep) := by
  induction l with
  | nil => rfl
  | cons a rest ih =>
    by_cases ha : test a = true
    · have hkept : keep a = true := himp a ha
      rw [changeFirst_cons_of_pos ha,
        List.filter_cons_of_pos ((hkeeps a).trans hkept),
        List.filter_cons_of_pos hkept, changeFirst_cons_of_pos ha]
    · rw [changeFirst_cons_of_neg ha]
      by_cases hkept : keep a = true
      · rw [List.filter_cons_of_pos hkept, List.filter_cons_of_pos hkept,
          changeFirst_cons_of_neg ha, ih]
      · rw [List.filter_cons_of_neg hkept, List.filter_cons_of_neg hkept, ih]

/-- If the first element is not kept, nothing changes among those kept. -/
theorem filter_changeFirst_of_ne (hkeeps : ∀ a, keep (change a) = keep a)
    (hne : ∀ a, test a = true → keep a = false) :
    (changeFirst test change l).filter keep = l.filter keep := by
  induction l with
  | nil => rfl
  | cons a rest ih =>
    by_cases ha : test a = true
    · have hdropped : ¬keep a = true := by simp [hne a ha]
      have hchanged : ¬keep (change a) = true := by rwa [hkeeps a]
      rw [changeFirst_cons_of_pos ha, List.filter_cons_of_neg hchanged,
        List.filter_cons_of_neg hdropped]
    · rw [changeFirst_cons_of_neg ha, List.filter_cons, List.filter_cons, ih]

end changeFirst

section concat

variable {α : Type} {test keep : α → Bool} {l : List α} {a : α}

/-- One more element that fails the test is not found. -/
theorem find?_concat_of_neg (ha : ¬test a = true) :
    (l ++ [a]).find? test = l.find? test := by
  rw [List.find?_append, List.find?_cons_of_neg ha, List.find?_nil,
    Option.or_none]

/-- One more element that is not kept is filtered out. -/
theorem filter_concat_of_neg (ha : ¬keep a = true) :
    (l ++ [a]).filter keep = l.filter keep := by
  rw [List.filter_append, List.filter_cons_of_neg ha, List.filter_nil,
    List.append_nil]

/-- Nothing that is kept has been dropped before. -/
theorem filter_filter_of_imp (h : ∀ a, keep a = true → test a = true) :
    (l.filter test).filter keep = l.filter keep := by
  rw [List.filter_filter]
  apply List.filter_congr
  intro a _
  cases hkeep : keep a with
  | false => rfl
  | true => exact h a hkeep

end concat

-- ============================================================== alike

section

variable (d : MemoryDirectory)

/-- The rows of a user. -/
def rowsOfUser (userId : Uuid) : List MembershipRow :=
  d.memberships.filter fun row => row.userId == userId

/-- The rows of an organization. -/
def rowsIn (organizationId : Uuid) : List MembershipRow :=
  d.memberships.filter fun row => row.organizationId == organizationId

/-- The user has a row in the organization, which may be inactive. -/
def BelongsTo (userId organizationId : Uuid) : Prop :=
  (organizationId, userId)
    ∈ d.memberships.map fun row => (row.organizationId, row.userId)

end

/-- Two directories that agree on a user's record and rows and, for each
organization that these are in, on its record, its rows and the people in
it. -/
structure AlikeTo (userId : Uuid) (d e : MemoryDirectory) : Prop where
  user : d.user? userId = e.user? userId
  own : d.rowsOfUser userId = e.rowsOfUser userId
  organization :
    ∀ id, d.BelongsTo userId id → d.organization? id = e.organization? id
  rows : ∀ id, d.BelongsTo userId id → d.rowsIn id = e.rowsIn id
  users : ∀ id, d.BelongsTo userId id → ∀ memberId, d.BelongsTo memberId id →
    d.user? memberId = e.user? memberId

/-- The calls about what a user may see. -/
def Visible (d : MemoryDirectory) (userId : Uuid) : DirectoryCall → Prop
  | .findUser id | .membershipsFor id => id = userId
  | .findOrganization id | .listMembers id
  | .setMemberRole id _ _ => d.BelongsTo userId id
  | _ => False

variable {d e : MemoryDirectory} {userId organizationId memberId : Uuid}
  {role : OrgRole}

/-- To belong to an organization is to have a row there. -/
theorem belongsTo_iff :
    d.BelongsTo userId organizationId ↔
      ∃ row ∈ d.memberships,
        row.userId = userId ∧ row.organizationId = organizationId := by
  unfold BelongsTo
  rw [List.mem_map]
  simp only [Prod.mk.injEq]
  exact ⟨fun ⟨row, hrow, h⟩ => ⟨row, hrow, h.2, h.1⟩,
    fun ⟨row, hrow, h⟩ => ⟨row, hrow, h.2, h.1⟩⟩

-- =========================================================== readings

/-- A member sees the same organization. -/
theorem AlikeTo.activeOrganization? (h : d.AlikeTo userId e)
    (hbelongs : d.BelongsTo userId organizationId) :
    d.activeOrganization? organizationId
      = e.activeOrganization? organizationId := by
  unfold MemoryDirectory.activeOrganization?
  rw [h.organization organizationId hbelongs]

/-- A user sees the same memberships of its own. -/
theorem AlikeTo.membershipsFor (h : d.AlikeTo userId e) :
    d.membershipsFor userId = e.membershipsFor userId := by
  show (byTime (d.rowsOfUser userId)).filterMap d.userSide?
    = (byTime (e.rowsOfUser userId)).filterMap e.userSide?
  rw [← h.own]
  refine List.filterMap_congr fun row hrow => ?_
  obtain ⟨hmem, huser⟩ := List.mem_filter.1 (List.mem_mergeSort.1 hrow)
  have hbelongs : d.BelongsTo userId row.organizationId :=
    belongsTo_iff.2 ⟨row, hmem, by simpa using huser, rfl⟩
  unfold userSide?
  rw [h.activeOrganization? hbelongs]

/-- A member sees the same fellow members. -/
theorem AlikeTo.membersOf (h : d.AlikeTo userId e)
    (hbelongs : d.BelongsTo userId organizationId) :
    d.membersOf organizationId = e.membersOf organizationId := by
  show (byTime (d.rowsIn organizationId)).filterMap d.organizationSide?
    = (byTime (e.rowsIn organizationId)).filterMap e.organizationSide?
  rw [← h.rows organizationId hbelongs]
  refine List.filterMap_congr fun row hrow => ?_
  obtain ⟨hmem, horganization⟩ := List.mem_filter.1 (List.mem_mergeSort.1 hrow)
  have hmember : d.BelongsTo row.userId organizationId :=
    belongsTo_iff.2 ⟨row, hmem, rfl, by simpa using horganization⟩
  unfold organizationSide?
  rw [h.users organizationId hbelongs row.userId hmember]

-- =========================================================== changing

/-- A membership is found among the rows of its organization. -/
theorem membership?_eq_find? (d : MemoryDirectory)
    (organizationId userId : Uuid) :
    d.membership? organizationId userId
      = (d.rowsIn organizationId).find? fun row => row.userId == userId := by
  unfold rowsIn membership?
  rw [List.find?_filter]
  congr 1
  funext row
  rw [Bool.eq_iff_iff]
  simp [MembershipRow.ties]

/-- Owners are counted among the organization's own rows. -/
theorem ownerCount_eq_countP (d : MemoryDirectory) (organizationId : Uuid) :
    d.ownerCount organizationId
      = (d.rowsIn organizationId).countP fun row => row.role == .owner := by
  unfold rowsIn ownerCount
  rw [List.countP_filter]
  simp only [Bool.and_comm]

/-- A change of role ends no membership and starts none. -/
theorem belongsTo_setRole {id : Uuid} :
    (d.setRole organizationId memberId role).BelongsTo userId id
      ↔ d.BelongsTo userId id := by
  unfold BelongsTo
  rw [map_keys_setRole]

/-- A change of role changes one row of the organization. -/
theorem rowsIn_setRole :
    (d.setRole organizationId memberId role).rowsIn organizationId
      = changeFirst (·.ties organizationId memberId) ({ · with role := role })
          (d.rowsIn organizationId) :=
  filter_changeFirst (fun _ => rfl) fun row hrow => by
    simpa using (ties_iff.1 hrow).1

/-- And no row of any other. -/
theorem rowsIn_setRole_of_ne {id : Uuid} (hne : organizationId ≠ id) :
    (d.setRole organizationId memberId role).rowsIn id = d.rowsIn id :=
  filter_changeFirst_of_ne (fun _ => rfl) fun row hrow => by
    simpa [(ties_iff.1 hrow).1] using hne

/-- It changes one row of the user. -/
theorem rowsOfUser_setRole :
    (d.setRole organizationId memberId role).rowsOfUser memberId
      = changeFirst (·.ties organizationId memberId) ({ · with role := role })
          (d.rowsOfUser memberId) :=
  filter_changeFirst (fun _ => rfl) fun row hrow => by
    simpa using (ties_iff.1 hrow).2

/-- And no row of anyone else. -/
theorem rowsOfUser_setRole_of_ne (hne : memberId ≠ userId) :
    (d.setRole organizationId memberId role).rowsOfUser userId
      = d.rowsOfUser userId :=
  filter_changeFirst_of_ne (fun _ => rfl) fun row hrow => by
    simpa [(ties_iff.1 hrow).2] using hne

/-- The same change of role leaves alike directories alike. -/
theorem AlikeTo.setRole (h : d.AlikeTo userId e)
    (hbelongs : d.BelongsTo userId organizationId) :
    (d.setRole organizationId memberId role).AlikeTo userId
      (e.setRole organizationId memberId role) where
  user := h.user
  own := by
    by_cases hself : memberId = userId
    · subst hself
      rw [rowsOfUser_setRole, rowsOfUser_setRole, h.own]
    · rw [rowsOfUser_setRole_of_ne hself, rowsOfUser_setRole_of_ne hself,
        h.own]
  organization := fun id hid => h.organization id (belongsTo_setRole.1 hid)
  rows := by
    intro id hid
    have hrows := h.rows id (belongsTo_setRole.1 hid)
    by_cases hsame : organizationId = id
    · subst hsame
      rw [rowsIn_setRole, rowsIn_setRole, hrows]
    · rw [rowsIn_setRole_of_ne hsame, rowsIn_setRole_of_ne hsame, hrows]
  users := fun id hid memberId hmember =>
    h.users id (belongsTo_setRole.1 hid) memberId (belongsTo_setRole.1 hmember)

/-- A change of role inside one of the user's organizations ends alike. -/
theorem AlikeTo.changeRole (h : d.AlikeTo userId e)
    (hbelongs : d.BelongsTo userId organizationId) :
    (d.changeRole organizationId memberId role).1
      = (e.changeRole organizationId memberId role).1
      ∧ (d.changeRole organizationId memberId role).2.AlikeTo userId
        (e.changeRole organizationId memberId role).2 := by
  have hmembership : d.membership? organizationId memberId
      = e.membership? organizationId memberId := by
    rw [membership?_eq_find?, membership?_eq_find?,
      h.rows organizationId hbelongs]
  have hcount : d.ownerCount organizationId = e.ownerCount organizationId := by
    rw [ownerCount_eq_countP, ownerCount_eq_countP,
      h.rows organizationId hbelongs]
  unfold MemoryDirectory.changeRole
  rw [← hmembership, ← hcount]
  cases d.membership? organizationId memberId with
  | none => exact ⟨rfl, h⟩
  | some row =>
    dsimp only
    split
    · exact ⟨rfl, h⟩
    · exact ⟨rfl, h.setRole hbelongs⟩

/-- A call about what the user may see is answered alike, and leaves the
directories alike. -/
theorem AlikeTo.answered {failures : DirectoryCall → Option DatabaseError}
    {call : DirectoryCall}
    (h : d.AlikeTo userId e) (hcall : d.Visible userId call) :
    (answerFailing failures call d).1 = (answerFailing failures call e).1
      ∧ (answerFailing failures call d).2.AlikeTo userId
        (answerFailing failures call e).2 := by
  unfold answerFailing
  cases failures call with
  | some failure => exact ⟨rfl, h⟩
  | none =>
    cases call with
    | findUser id =>
      cases hcall
      exact ⟨congrArg Except.ok h.user, h⟩
    | membershipsFor id =>
      cases hcall
      exact ⟨congrArg Except.ok h.membershipsFor, h⟩
    | findOrganization id =>
      exact ⟨congrArg Except.ok (h.activeOrganization? hcall), h⟩
    | listMembers id => exact ⟨congrArg Except.ok (h.membersOf hcall), h⟩
    | setMemberRole id memberId role =>
      obtain ⟨hchange, hafter⟩ := h.changeRole hcall
      exact ⟨congrArg Except.ok hchange, hafter⟩
    | findUserByEmail | listOrganizations | setOrganizationTier => cases hcall

-- ========================================================== elsewhere

/-- The user, and the people who have an organization with the user in
common. -/
def InSight (d : MemoryDirectory) (userId memberId : Uuid) : Prop :=
  memberId = userId ∨ ∃ id, d.BelongsTo userId id ∧ d.BelongsTo memberId id

/-- What may happen to the organizations that a user has no row in, and to the
people out of sight. -/
inductive Elsewhere (d : MemoryDirectory) (userId : Uuid) :
    MemoryDirectory → Prop
  | organizationAdded {o : Organization} (h : ¬d.BelongsTo userId o.id) :
    Elsewhere d userId (d.addOrganization o)
  | organizationActive {id : Uuid} {isActive : Bool}
      (h : ¬d.BelongsTo userId id) :
    Elsewhere d userId (d.setOrganizationActive id isActive)
  | tier {id : Uuid} {tier : Tier} (h : ¬d.BelongsTo userId id) :
    Elsewhere d userId (d.setTier id tier)
  | userAdded {user : User} (h : ¬d.InSight userId user.id) :
      Elsewhere d userId (d.addUser user)
  | userActive {id : Uuid} {isActive : Bool} (h : ¬d.InSight userId id) :
    Elsewhere d userId (d.setUserActive id isActive)
  | memberAdded {row : MembershipRow} (huser : row.userId ≠ userId)
      (h : ¬d.BelongsTo userId row.organizationId) :
    Elsewhere d userId (d.addMembership row)
  | memberRemoved {id memberId : Uuid} (huser : memberId ≠ userId)
      (h : ¬d.BelongsTo userId id) :
    Elsewhere d userId (d.removeMembership id memberId)
  | role {id memberId : Uuid} {role : OrgRole} (huser : memberId ≠ userId)
      (h : ¬d.BelongsTo userId id) :
    Elsewhere d userId (d.setRole id memberId role)

/-- A directory looks the same to a user if that user's organizations do. -/
theorem alikeTo_of_organizations {organizations : List Organization}
    (h : ∀ id, d.BelongsTo userId id →
      organizations.find? (fun o => o.id == id) = d.organization? id) :
    d.AlikeTo userId { d with organizations := organizations } where
  user := rfl
  own := rfl
  organization := fun id hid => (h id hid).symm
  rows := fun _ _ => rfl
  users := fun _ _ _ _ => rfl

/-- It looks the same if the users in sight do. -/
theorem alikeTo_of_users {users : List User}
    (h : ∀ id, d.InSight userId id →
      users.find? (fun u => u.id == id) = d.user? id) :
    d.AlikeTo userId { d with users := users } where
  user := (h userId (.inl rfl)).symm
  own := rfl
  organization := fun _ _ => rfl
  rows := fun _ _ => rfl
  users :=
    fun id hid memberId hmember => (h memberId (.inr ⟨id, hid, hmember⟩)).symm

/-- It looks the same if the user's rows and those of the user's organizations
do. -/
theorem alikeTo_of_memberships {rows : List MembershipRow}
    (hown : rows.filter (fun row => row.userId == userId)
      = d.rowsOfUser userId)
    (h : ∀ id, d.BelongsTo userId id →
      rows.filter (fun row => row.organizationId == id) = d.rowsIn id) :
    d.AlikeTo userId { d with memberships := rows } where
  user := rfl
  own := hown.symm
  organization := fun _ _ => rfl
  rows := fun id hid => (h id hid).symm
  users := fun _ _ _ _ => rfl

/-- An organization that the user does not belong to is none of the user's
own. -/
theorem ne_of_belongsTo {id other : Uuid} (h : ¬d.BelongsTo userId other)
    (hid : d.BelongsTo userId id) : other ≠ id := by
  intro hsame
  rw [hsame] at h
  exact h hid

/-- Nor is a user out of sight one of those in sight. -/
theorem ne_of_inSight {id other : Uuid} (h : ¬d.InSight userId other)
    (hid : d.InSight userId id) : other ≠ id := by
  intro hsame
  rw [hsame] at h
  exact h hid

/-- An identifier is one at most. -/
theorem beq_eq_false_of_ne {a id other : Uuid} (hne : other ≠ id)
    (ha : (a == other) = true) : (a == id) = false := by
  rw [beq_iff_eq.1 ha]
  simpa using hne

/-- What happens elsewhere leads to a directory that is alike. -/
theorem Elsewhere.alikeTo (h : d.Elsewhere userId e) : d.AlikeTo userId e := by
  cases h with
  | organizationAdded h =>
    apply alikeTo_of_organizations
    intro id hid
    have hne := ne_of_belongsTo h hid
    exact find?_concat_of_neg (by simpa using hne)
  | organizationActive h =>
    apply alikeTo_of_organizations
    intro id hid
    have hne := ne_of_belongsTo h hid
    exact find?_changeFirst_of_ne (fun _ ho => beq_eq_false_of_ne hne ho)
      fun _ => rfl
  | tier h =>
    apply alikeTo_of_organizations
    intro id hid
    have hne := ne_of_belongsTo h hid
    exact find?_changeFirst_of_ne (fun _ ho => beq_eq_false_of_ne hne ho)
      fun _ => rfl
  | userAdded h =>
    apply alikeTo_of_users
    intro id hid
    have hne := ne_of_inSight h hid
    exact find?_concat_of_neg (by simpa using hne)
  | userActive h =>
    apply alikeTo_of_users
    intro id hid
    have hne := ne_of_inSight h hid
    exact find?_changeFirst_of_ne (fun _ hu => beq_eq_false_of_ne hne hu)
      fun _ => rfl
  | memberAdded huser h =>
    apply alikeTo_of_memberships
    · exact filter_concat_of_neg (by simpa using huser)
    · intro id hid
      have hne := ne_of_belongsTo h hid
      exact filter_concat_of_neg (by simpa using hne)
  | memberRemoved huser h =>
    apply alikeTo_of_memberships
    · apply filter_filter_of_imp
      intro row hrow
      rw [Bool.not_eq_true', ← Bool.not_eq_true, ties_iff]
      intro hties
      exact huser (hties.2.symm.trans (beq_iff_eq.1 hrow))
    · intro id hid
      have hne := ne_of_belongsTo h hid
      apply filter_filter_of_imp
      intro row hrow
      rw [Bool.not_eq_true', ← Bool.not_eq_true, ties_iff]
      intro hties
      exact hne (hties.1.symm.trans (beq_iff_eq.1 hrow))
  | role huser h =>
    apply alikeTo_of_memberships
    · exact rowsOfUser_setRole_of_ne huser
    · intro id hid
      exact rowsIn_setRole_of_ne (ne_of_belongsTo h hid)

end Tenancy.MemoryDirectory
