/-
The directory's tables in a database that has one client. What is
committed is a directory, and so is what a transaction has made of it;
statements see and change the one or the other, and a COMMIT or ROLLBACK
ends the difference. Any server will do that answers the statements of a
change of role, as their texts are read, and the one that lists the
members, by its text (`DirectoryTables.Serves`).

Where nobody has two memberships in one organization, the statements of a
change of role come to the change in the directory that is in memory
(`Serves.setMemberRole`), whole or not at all. The program is followed
from its last statement to its first, each with what is committed and
what is pending when it is made. And whatever lists the members lists the
same ones (`MemoryDirectory.Lists`).
-/
import Tenancy.Proofs.Directory.Ownership
import Tenancy.Proofs.Directory.RoleTransactions

namespace Tenancy

open Sql Program

-- ============================================================ members

namespace MemoryDirectory

variable {d : MemoryDirectory} {o u : Uuid} {m m' : Member} {role : OrgRole}

/-- Listed in an organization is who has a membership in it and is a user. -/
def Lists (d : MemoryDirectory) (organizationId : Uuid) (member : Member) :
    Prop :=
  ∃ row ∈ d.memberships, ∃ user, row.organizationId = organizationId
    ∧ d.user? row.userId = some user
    ∧ member = ⟨user.id, user.email, user.name, row.role, row.joinedAt⟩

/-- A user is found by the user's own identifier. -/
theorem id_of_user? {id : Uuid} {user : User} (h : d.user? id = some user) :
    user.id = id := by
  simpa using List.find?_some h

/-- A member is listed for a row of the organization whose user is there. -/
theorem lists_iff : d.Lists o m ↔
    ∃ row ∈ d.memberships,
      row.organizationId = o ∧ d.organizationSide? row = some m := by
  unfold Lists organizationSide?
  constructor
  · intro ⟨row, hrow, user, horganization, huser, hm⟩
    exact ⟨row, hrow, horganization,
      Option.bind_eq_some_iff.2 ⟨user, huser, hm ▸ rfl⟩⟩
  · intro ⟨row, hrow, horganization, hside⟩
    obtain ⟨user, huser, hm⟩ := Option.bind_eq_some_iff.1 hside
    cases hm
    exact ⟨row, hrow, user, horganization, huser, rfl⟩

theorem mem_filterMap_organizationSide? :
    m ∈ (d.memberships.filter fun row => row.organizationId == o).filterMap
      d.organizationSide?
      ↔ d.Lists o m := by
  rw [lists_iff, List.mem_filterMap]
  simp only [List.mem_filter, beq_iff_eq, and_assoc]

/-- The list of members has those that are listed, in some order. -/
theorem mem_membersOf : m ∈ d.membersOf o ↔ d.Lists o m := by
  rw [← mem_filterMap_organizationSide?]
  exact ((List.mergeSort_perm _ _).filterMap _).mem_iff

/-- The row of a user in an organization is the only one there is. -/
theorem membership?_of_mem (hunique : d.UniqueMemberships)
    {row : MembershipRow}
    (hrow : row ∈ d.memberships) :
    d.membership? row.organizationId row.userId = some row := by
  cases hfirst : d.membership? row.organizationId row.userId with
  | none =>
    exact absurd (ties_iff.2 ⟨rfl, rfl⟩) (List.find?_eq_none.1 hfirst row hrow)
  | some first =>
    obtain ⟨horganization, huser⟩ := ties_iff.1 (ties_of_membership? hfirst)
    have hmem : first ∈ d.memberships := List.mem_of_find?_eq_some hfirst
    exact congrArg some
      (List.inj_on_of_nodup_map hunique hmem hrow
        (Prod.ext horganization huser))

/-- The role that a member is listed with is the role of the membership. -/
theorem Lists.membership? (hunique : d.UniqueMemberships) (h : d.Lists o m) :
    ∃ row, d.membership? o m.userId = some row ∧ row.role = m.role := by
  obtain ⟨row, hrow, user, rfl, huser, rfl⟩ := h
  have hid := id_of_user? huser
  refine ⟨row, ?_, rfl⟩
  rw [hid]
  exact membership?_of_mem hunique hrow

/-- A user is listed at most once, if memberships are unique. -/
theorem Lists.unique (hunique : d.UniqueMemberships) (h : d.Lists o m)
    (h' : d.Lists o m') (hsame : m.userId = m'.userId) : m = m' := by
  obtain ⟨row, hrow, user, rfl, huser, rfl⟩ := h
  obtain ⟨row', hrow', user', horganization, huser', rfl⟩ := h'
  have hid := id_of_user? huser
  have hid' := id_of_user? huser'
  have hkey : row.userId = row'.userId := hid.symm.trans (hsame.trans hid')
  obtain rfl : row = row' :=
    List.inj_on_of_nodup_map hunique hrow hrow'
      (Prod.ext horganization.symm hkey)
  cases huser.symm.trans huser'
  rfl

/-- In whatever order members are listed, the same one is found. -/
theorem find?_eq_some_iff {members : List Member}
    (hunique : d.UniqueMemberships)
    (hmembers : ∀ m, m ∈ members ↔ d.Lists o m) :
    members.find? (fun m => m.userId == u) = some m
      ↔ d.Lists o m ∧ m.userId = u := by
  constructor
  · intro h
    exact ⟨(hmembers m).1 (List.mem_of_find?_eq_some h),
      by simpa using List.find?_some h⟩
  · intro ⟨hlists, huser⟩
    cases hfound : members.find? fun m => m.userId == u with
    | none =>
      exact absurd (beq_iff_eq.2 huser)
        (List.find?_eq_none.1 hfound m ((hmembers m).2 hlists))
    | some found =>
      have hlisted := (hmembers found).1 (List.mem_of_find?_eq_some hfound)
      have huser' : found.userId = u := by simpa using List.find?_some hfound
      rw [hlisted.unique hunique hlists (huser'.trans huser.symm)]

-- ============================================================== roles

/-- Of elements of which one passes a test at most, the first that does is
every one. -/
theorem changeFirst_eq_map {α : Type} {test : α → Bool} {change : α → α}
    {l : List α} (h : l.Pairwise fun a b => ¬(test a = true ∧ test b = true)) :
    changeFirst test change l
      = l.map fun a => if test a then change a else a := by
  induction l with
  | nil => rfl
  | cons a rest ih =>
    obtain ⟨hothers, hrest⟩ := List.pairwise_cons.1 h
    rw [List.map_cons, changeFirst]
    by_cases ha : test a = true
    · rw [if_pos ha, if_pos ha]
      refine congrArg (change a :: ·)
        ((List.map_id rest).symm.trans (List.map_congr_left ?_))
      exact fun b hb => (if_neg fun htest => hothers b hb ⟨ha, htest⟩).symm
    · rw [if_neg ha, if_neg ha, ih hrest]

/-- A test that at most one element passes keeps what it finds. -/
theorem filter_eq_find? {α : Type} {test : α → Bool} {l : List α}
    (h : l.Pairwise fun a b => ¬(test a = true ∧ test b = true)) :
    l.filter test = (l.find? test).toList := by
  induction l with
  | nil => rfl
  | cons a rest ih =>
    obtain ⟨hothers, hrest⟩ := List.pairwise_cons.1 h
    by_cases ha : test a = true
    · rw [List.filter_cons_of_pos ha, List.find?_cons_of_pos ha]
      exact congrArg (a :: ·)
        (List.filter_eq_nil_iff.2 fun b hb htest => hothers b hb ⟨ha, htest⟩)
    · rw [List.filter_cons_of_neg ha, List.find?_cons_of_neg ha, ih hrest]

/-- No two rows tie the same user to the same organization. -/
theorem UniqueMemberships.pairwise (h : d.UniqueMemberships) (o u : Uuid) :
    d.memberships.Pairwise fun a b =>
      ¬(a.ties o u = true ∧ b.ties o u = true) := by
  refine List.Pairwise.imp ?_ (List.pairwise_map.1 h)
  intro a b hne ⟨ha, hb⟩
  obtain ⟨rfl, rfl⟩ := ties_iff.1 ha
  obtain ⟨horganization, huser⟩ := ties_iff.1 hb
  exact hne (Prod.ext horganization.symm huser.symm)

/-- An owner is counted. -/
theorem ownerCount_pos {row : MembershipRow}
    (hrow : d.membership? o u = some row)
    (howner : row.role = .owner) : 0 < d.ownerCount o := by
  obtain ⟨horganization, -⟩ := ties_iff.1 (ties_of_membership? hrow)
  refine List.countP_pos_iff.2 ⟨row, List.mem_of_find?_eq_some hrow, ?_⟩
  rw [horganization, howner, beq_self_eq_true, beq_self_eq_true, Bool.and_self]

/-- A change of role changes that of one membership, where it stands. -/
theorem memberships_setRole (hunique : d.UniqueMemberships) :
    (d.setRole o u role).memberships
      = d.memberships.map fun row =>
        if row.ties o u then { row with role := role } else row :=
  changeFirst_eq_map (hunique.pairwise o u)

end MemoryDirectory

-- ============================================================= tables

/-- The tables of a directory as one client finds them: what is committed, and
what a transaction under way has made of it. -/
structure DirectoryTables where
  committed : MemoryDirectory
  pending : Option MemoryDirectory

namespace DirectoryTables

/-- The tables when no transaction is open. -/
def atRest (d : MemoryDirectory) : DirectoryTables := ⟨d, none⟩

/-- In a transaction that has made one directory of another. -/
def within (d d' : MemoryDirectory) : DirectoryTables := ⟨d, some d'⟩

/-- What a statement sees. -/
def seen (s : DirectoryTables) : MemoryDirectory := s.pending.getD s.committed

/-- A change is committed at once, unless it is made in a transaction. -/
def write (s : DirectoryTables) (d : MemoryDirectory) : DirectoryTables :=
  match s.pending with
  | none => atRest d
  | some _ => within s.committed d

/-- The directory with a role for every membership of a user in an
organization. -/
def withRole (d : MemoryDirectory) (o u : Uuid) (role : OrgRole) :
    MemoryDirectory :=
  { d with memberships := d.memberships.map fun row =>
            if row.ties o u then { row with role := role } else row }

/-- A member as a row of the list. -/
def memberRow (m : Member) : Row := [
  ("user_id", .uuid m.userId),
  ("email", .text m.email),
  ("name", .text m.name),
  ("role", .text m.role.name),
  ("joined_at", .timestamp m.joinedAt)]

/-- The list of an organization's members: its memberships joined with their
users, before they are put into an order. -/
def listing (d : MemoryDirectory) (organizationId : Uuid) : List Member :=
  (d.memberships.filter fun row =>
    row.organizationId == organizationId).filterMap d.organizationSide?

/-- A server answers a statement with rows of which something holds, and then
has these tables. -/
def Answers {σ : Type} (server : World serverInterface σ)
    (tables : σ → DirectoryTables) (statement : Statement) (s : σ)
    (Shows : List Row → Prop) (after : DirectoryTables) : Prop :=
  ∃ reply s', server statement s = (.ok reply, s') ∧ Shows reply.rows
    ∧ tables s' = after

/-- A server has the tables of a directory, and nothing fails in it. Of the
statements of a change of role, it does what their texts ask for: a
transaction is begun and ended, rows are shown as the client sees them, in
any order, and an UPDATE gives the rows that it is about their new role, and
no others. Members are listed by joining memberships and users. -/
structure Serves {σ : Type} (server : World serverInterface σ)
    (tables : σ → DirectoryTables) : Prop where
  begins : ∀ {statement s},
    RoleCommand.ofStatement? statement = some .begin →
    (tables s).pending = none →
    Answers server tables statement s (fun _ => True)
      (within (tables s).committed (tables s).committed)
  commits : ∀ {statement s},
    RoleCommand.ofStatement? statement = some .commit →
    Answers server tables statement s (fun _ => True)
      (atRest (tables s).seen)
  rollsBack : ∀ {statement s},
    RoleCommand.ofStatement? statement = some .rollback →
    Answers server tables statement s (fun _ => True)
      (atRest (tables s).committed)
  locks : ∀ {statement s o},
    RoleCommand.ofStatement? statement = some (.lock o) →
    Answers server tables statement s
      (fun rows => rows = ((tables s).seen.organization? o).toList.map
        fun found => [("id", .uuid found.id)])
      (tables s)
  reads : ∀ {statement s o u},
    RoleCommand.ofStatement? statement = some (.read o u) →
    Answers server tables statement s
      (fun rows => rows.Perm
        (((tables s).seen.memberships.filter fun row => row.ties o u).map
          fun row => [("role", .text row.role.name)]))
      (tables s)
  counts : ∀ {statement s o},
    RoleCommand.ofStatement? statement = some (.owners o) →
    Answers server tables statement s
      (fun rows => rows = [[("count", .int8 ((tables s).seen.ownerCount o))]])
      (tables s)
  writes : ∀ {statement s o u} {role : OrgRole},
    RoleCommand.ofStatement? statement = some (.write o u role.name) →
    Answers server tables statement s (fun _ => True)
      ((tables s).write (withRole (tables s).seen o u role))
  lists : ∀ {statement : Statement} {s o},
    statement.text
      = "SELECT u.id AS user_id, u.email, u.name, m.role, "
        ++ "m.created_at AS joined_at FROM memberships m "
        ++ "JOIN users u ON u.id = m.user_id "
        ++ "WHERE m.organization_id = $1 ORDER BY m.created_at ASC" →
    statement.params = [.uuid o] →
    Answers server tables statement s
      (fun rows => ∃ members : List Member,
        members.Perm (listing (tables s).seen o)
          ∧ rows = members.map memberRow)
      (tables s)

variable {σ α : Type} {server : World serverInterface σ}
  {tables : σ → DirectoryTables} {s : σ} {d d' : MemoryDirectory}
  {statement : Statement} {o u : Uuid} {role previous : OrgRole}
  {t : RoleWrite}

/-- Run to its end, a program has a result, and this is what the tables are. -/
def Ends (server : World serverInterface σ) (tables : σ → DirectoryTables)
    (p : Program serverInterface α) (s : σ) (result : α)
    (after : DirectoryTables) : Prop :=
  ∃ s', p.run server s = (result, s') ∧ tables s' = after

/-- A client that is done has ended. -/
theorem ends_done {result : α} {after : DirectoryTables}
    (h : tables s = after) :
    Ends server tables (.done result) s result after :=
  ⟨s, rfl, h⟩

/-- A statement that is answered is followed by what is made of the answer. -/
theorem Answers.ends {Shows : List Row → Prop}
    {next : Except Failure Reply → Program serverInterface α} {result : α}
    {between after : DirectoryTables}
    (h : Answers server tables statement s Shows between)
    (hnext : ∀ reply s', Shows reply.rows → tables s' = between →
      Ends server tables (next (.ok reply)) s' result after) :
    Ends server tables (.ask statement next) s result after := by
  obtain ⟨reply, s', hanswer, hrows, htables⟩ := h
  obtain ⟨s₁, hrun, hafter⟩ := hnext reply s' hrows htables
  refine ⟨s₁, ?_, hafter⟩
  show (next (server statement s).1).run server (server statement s).2 = _
  rw [hanswer]
  exact hrun

-- ============================================================== roles

/-- A rollback gives up what the transaction has written. -/
theorem Serves.rollingBack (h : Serves server tables)
    (hs : tables s = within d d')
    (result : Except DatabaseError RoleChange) :
    Ends server tables (RoleWrite.rollingBack result) s result
      (atRest d) := by
  refine (h.rollsBack RoleCommand.ofStatement?_rollback).ends
    fun reply s' _ hs' => ends_done ?_
  rw [hs', hs]
  rfl

/-- A commit keeps it. -/
theorem Serves.committing (h : Serves server tables)
    (hs : tables s = within d d') :
    Ends server tables (RoleWrite.committing previous) s
      (.ok (.updated previous)) (atRest d') := by
  refine (h.commits RoleCommand.ofStatement?_commit).ends
    fun reply s' _ hs' => ends_done ?_
  rw [hs', hs]
  rfl

/-- The memberships of others are left, each where it was. -/
theorem filter_not_ties_withRole :
    (withRole d o u role).memberships.filter (fun row => !row.ties o u)
      = d.memberships.filter fun row => !row.ties o u := by
  unfold withRole
  dsimp only
  induction d.memberships with
  | nil => rfl
  | cons row rest ih =>
    rw [List.map_cons]
    by_cases hrow : row.ties o u = true
    · have hchanged :
          ({ row with role := role } : MembershipRow).ties o u = true := hrow
      rw [if_pos hrow, List.filter_cons_of_neg (by simp [hchanged]),
        List.filter_cons_of_neg (by simp [hrow]), ih]
    · rw [if_neg hrow, List.filter_cons_of_pos (by simp [hrow]),
        List.filter_cons_of_pos (by simp [hrow]), ih]

/-- With unique memberships, writing the role of all rows is writing that of
the first. -/
theorem withRole_eq_setRole (hunique : d.UniqueMemberships) :
    withRole d o u role = d.setRole o u role := by
  unfold withRole
  rw [← MemoryDirectory.memberships_setRole hunique]
  rfl

/-- The statement that reads a role finds the row that the directory finds. -/
theorem filter_ties (hunique : d.UniqueMemberships) :
    (d.memberships.filter fun row => row.ties o u)
      = (d.membership? o u).toList :=
  MemoryDirectory.filter_eq_find? (hunique.pairwise o u)

/-- The write is made, and then committed. -/
theorem Serves.updating (h : Serves server tables)
    (hunique : d.UniqueMemberships) (hs : tables s = within d d) :
    Ends server tables (t.updating previous) s (.ok (.updated previous))
      (atRest (d.setRole t.organizationId t.userId t.role)) := by
  refine (h.writes RoleCommand.ofStatement?_updateRole).ends
    fun reply s' _ hs' => h.committing (d := d) ?_
  rw [hs', hs, ← withRole_eq_setRole hunique]
  rfl

/-- The last owner is left alone; with another one the write is made. -/
theorem Serves.counting (h : Serves server tables)
    (hunique : d.UniqueMemberships) (hs : tables s = within d d)
    (previous : OrgRole) :
    if d.ownerCount t.organizationId ≤ 1 then
      Ends server tables (t.counting previous) s (.ok .lastOwner) (atRest d)
    else
      Ends server tables (t.counting previous) s (.ok (.updated previous))
        (atRest (d.setRole t.organizationId t.userId t.role)) := by
  have hcounted {result : Except DatabaseError RoleChange}
      {after : DirectoryTables}
      (hnext : ∀ s', tables s' = within d d →
        Ends server tables
          (if (d.ownerCount t.organizationId : Int) ≤ 1 then
            RoleWrite.rollingBack (.ok .lastOwner)
          else t.updating previous) s' result after) :
      Ends server tables (t.counting previous) s result after := by
    refine (h.counts RoleCommand.ofStatement?_countOwners).ends
      fun reply s' hrows hs' => ?_
    obtain ⟨rows, affected⟩ := reply
    rw [hs] at hrows
    cases hrows
    exact hnext s' (hs'.trans hs)
  split_ifs with hlast
  · refine hcounted fun s' hs' => ?_
    rw [if_pos (by omega)]
    exact h.rollingBack hs' _
  · refine hcounted fun s' hs' => ?_
    rw [if_neg (by omega)]
    exact h.updating hunique hs'

/-- By the role that is read, the transaction goes on as the directory does. -/
theorem Serves.named (h : Serves server tables)
    (hunique : d.UniqueMemberships) (hs : tables s = within d d)
    {row : MembershipRow}
    (hrow : d.membership? t.organizationId t.userId = some row) :
    Ends server tables (t.named row.role.name) s
      (.ok (d.changeRole t.organizationId t.userId t.role).1)
      (atRest (d.changeRole t.organizationId t.userId t.role).2) := by
  unfold RoleWrite.named MemoryDirectory.changeRole
  rw [OrgRole.ofName?_name, hrow]
  dsimp only
  by_cases hrevokes : row.role = .owner ∧ t.role ≠ .owner
  · rw [if_pos hrevokes]
    have hcounting := h.counting (t := t) hunique hs row.role
    by_cases hlast : d.ownerCount t.organizationId ≤ 1
    · rw [if_pos hlast] at hcounting
      rw [if_pos ⟨hrevokes.1, hrevokes.2, hlast⟩]
      exact hcounting
    · rw [if_neg hlast] at hcounting
      rw [if_neg fun h => hlast h.2.2]
      exact hcounting
  · rw [if_neg hrevokes, if_neg fun h => hrevokes ⟨h.1, h.2.1⟩]
    exact h.updating hunique hs

/-- The member's role is read, and the change is the one that a directory in
memory makes. -/
theorem Serves.reading (h : Serves server tables)
    (hunique : d.UniqueMemberships) (hs : tables s = within d d) :
    Ends server tables t.reading s
      (.ok (d.changeRole t.organizationId t.userId t.role).1)
      (atRest (d.changeRole t.organizationId t.userId t.role).2) := by
  refine (h.reads RoleCommand.ofStatement?_selectRole).ends
    fun reply s' hrows hs' => ?_
  obtain ⟨rows, affected⟩ := reply
  rw [hs] at hs'
  have hread : rows.Perm ((d.memberships.filter fun row =>
      row.ties t.organizationId t.userId).map
        fun row => [("role", .text row.role.name)]) := by
    rw [hs] at hrows
    exact hrows
  rw [filter_ties hunique] at hread
  cases hrow : d.membership? t.organizationId t.userId with
  | none =>
    rw [hrow] at hread
    obtain rfl := hread.eq_nil
    have hchange : d.changeRole t.organizationId t.userId t.role
        = (.notMember, d) := by
      unfold MemoryDirectory.changeRole
      rw [hrow]
    rw [hchange]
    exact h.rollingBack hs' _
  | some row =>
    rw [hrow] at hread
    obtain rfl := List.perm_singleton.1 hread
    exact h.named hunique hs' hrow

/-- The transaction comes to the change of the directory, and is over. -/
theorem Serves.setMemberRole (h : Serves server tables)
    (hunique : d.UniqueMemberships) (hs : tables s = atRest d) :
    Ends server tables (DatabaseDirectory.answer (.setMemberRole o u role)) s
      (.ok (d.changeRole o u role).1) (atRest (d.changeRole o u role).2) := by
  have hprogram : DatabaseDirectory.answer (.setMemberRole o u role)
      = RoleWrite.beginning ⟨o, u, role⟩ := RoleWrite.program_eq ⟨o, u, role⟩
  rw [hprogram]
  refine (h.begins RoleCommand.ofStatement?_begin (by rw [hs]; rfl)).ends
    fun reply s₁ _ hs₁ => ?_
  refine (h.locks RoleCommand.ofStatement?_lockOrganization).ends
    fun reply s₂ _ hs₂ => h.reading (t := ⟨o, u, role⟩) hunique ?_
  rw [hs₂, hs₁, hs]
  rfl

-- ============================================================ members

/-- A member is read back from the row that shows it. -/
theorem member_memberRow (m : Member) :
    DatabaseDirectory.member (memberRow m) = pure m := by
  obtain ⟨userId, email, name, role, joinedAt⟩ := m
  cases role <;> rfl

/-- Whoever is listed is listed, in some order, and the tables stay as they
are. -/
theorem Serves.listMembers (h : Serves server tables)
    (hs : tables s = atRest d) :
    ∃ members : List Member, members.Perm (listing d o)
      ∧ Ends server tables (DatabaseDirectory.answer (.listMembers o)) s
        (.ok members) (atRest d) := by
  obtain ⟨reply, s', hanswer, ⟨members, hmembers, hrows⟩, hs'⟩ :=
    @Serves.lists _ _ _ h (DatabaseDirectory.selectMembers o) s o rfl rfl
  rw [hs] at hmembers hs'
  refine ⟨members, hmembers, s', ?_, hs'⟩
  have hread : (members.map memberRow).mapM DatabaseDirectory.member
      = pure members := by
    rw [List.mapM_map,
      funext (f := DatabaseDirectory.member ∘ memberRow) member_memberRow]
    exact List.mapM_pure.trans (by rw [List.map_id'])
  have hask : ExceptT.run (DatabaseDirectory.selectAll
      (DatabaseDirectory.selectMembers o) DatabaseDirectory.member) = _ :=
    RoleWrite.run_bind_statement
  show Program.run server (ExceptT.run (DatabaseDirectory.selectAll
    (DatabaseDirectory.selectMembers o) DatabaseDirectory.member)) s = _
  rw [hask]
  simp only [Program.run, hanswer]
  rw [hrows, hread]
  rfl

-- ============================================================= server

/-- The answer of some rows, with nothing changed. -/
def rows (s : DirectoryTables) (rows : List Row) :
    Except Failure Reply × DirectoryTables :=
  (.ok ⟨rows, rows.length⟩, s)

/-- What a statement of a change of role is answered where nothing fails. The
column of the role holds names of roles only. -/
def obey (s : DirectoryTables) :
    RoleCommand → Except Failure Reply × DirectoryTables
  | .begin => (.ok ⟨[], 0⟩, within s.committed s.committed)
  | .commit => (.ok ⟨[], 0⟩, atRest s.seen)
  | .rollback => (.ok ⟨[], 0⟩, atRest s.committed)
  | .lock o => s.rows ((s.seen.organization? o).toList.map
      fun found => [("id", .uuid found.id)])
  | .read o u =>
    s.rows ((s.seen.memberships.filter fun row => row.ties o u).map
      fun row => [("role", .text row.role.name)])
  | .owners o => s.rows [[("count", .int8 (s.seen.ownerCount o))]]
  | .write o u name =>
    match OrgRole.ofName? name with
    | some role => (.ok ⟨[], 0⟩, s.write (withRole s.seen o u role))
    | none => (.error (.server "23514" "new row violates check constraint"), s)

/-- A server that has nothing but the tables, and puts lists of members into an
order. -/
def answer (order : List Member → List Member) :
    World serverInterface DirectoryTables :=
  fun (statement : Statement) s =>
    match RoleCommand.ofStatement? statement, statement.params with
    | some command, _ => s.obey command
    | none, [.uuid o] => s.rows ((order (listing s.seen o)).map memberRow)
    | none, _ => (.error (.server "42601" "syntax error"), s)

/-- A statement that is a command is obeyed. -/
theorem answer_command {order : List Member → List Member}
    {s : DirectoryTables} {command : RoleCommand}
    (h : RoleCommand.ofStatement? statement = some command) :
    answer order statement s = s.obey command := by
  unfold answer
  rw [h]

/-- The small server serves its tables, whatever the order of its rows. -/
theorem serves_answer {order : List Member → List Member}
    (horder : ∀ l, (order l).Perm l) : Serves (answer order) id where
  begins asks _ := ⟨_, _, answer_command asks, trivial, rfl⟩
  commits asks := ⟨_, _, answer_command asks, trivial, rfl⟩
  rollsBack asks := ⟨_, _, answer_command asks, trivial, rfl⟩
  locks asks := ⟨_, _, answer_command asks, rfl, rfl⟩
  reads asks := ⟨_, _, answer_command asks, .refl _, rfl⟩
  counts asks := ⟨_, _, answer_command asks, rfl, rfl⟩
  writes {statement s o u role} asks := by
    have hobeys : s.obey (.write o u role.name)
        = (.ok ⟨[], 0⟩, s.write (withRole s.seen o u role)) := by
      unfold obey
      dsimp only
      rw [OrgRole.ofName?_name]
    exact ⟨_, _, (answer_command asks).trans hobeys, trivial, rfl⟩
  lists {statement s o} htext hparams := by
    have hnone : RoleCommand.ofStatement? statement = none := by
      unfold RoleCommand.ofStatement?
      rw [htext, show command? _ = none by decide +kernel]
      rfl
    have hanswer : answer order statement s
        = s.rows ((order (listing s.seen o)).map memberRow) := by
      unfold answer
      rw [hnone, hparams]
    exact ⟨_, _, hanswer, ⟨_, horder _, rfl⟩, rfl⟩

end DirectoryTables

end Tenancy
