/-
What changes of role rely on, of a database that answers several
transactions at once. What a statement asks for is read from its text and
its parameters (`RoleCommand.ofStatement?`): which row it locks, whose
role it shows, which rows it counts and which of them gets what role.

What counts for everybody are the committed rows; what a transaction has
written stays its own until it commits. A statement sees the rows that
are committed when it is made, and what its own transaction has written;
the row that it locks is held until the transaction ends. A statement may
have to wait, it may fail, and a client may be gone at any moment: then
what its transaction has written is dropped, and its locks are given back
(`Database.Answers`).

Nothing that one transaction is answered touches what another one holds
(`Answers.apart`), and the committed memberships change at a COMMIT only
(`Answers.memberships`). Any database will do that answers like this at
every turn (`ReadCommitted`); in the one at the end nothing fails
(`turns`).
-/
import Mathlib.Data.List.Nodup
import Tenancy.Directory.Database
import Tenancy.Proofs.Interleaving
import Tenancy.Proofs.Sql.Commands

namespace Tenancy

open Sql

-- ======================================================== memberships

/-- A membership as it is stored, its role by name. -/
structure StoredMembership where
  organizationId : Uuid
  userId : Uuid
  role : String
deriving DecidableEq

/-- Is it the membership of a user in an organization? -/
def StoredMembership.ties (row : StoredMembership)
    (organizationId userId : Uuid) : Bool :=
  row.organizationId == organizationId && row.userId == userId

/-- The stored memberships: one at most for a user in an organization. -/
structure StoredMemberships where
  rows : List StoredMembership
  unique : (rows.map fun row => (row.organizationId, row.userId)).Nodup

/-- New roles for some memberships, by organization and user. -/
abbrev RoleUpdates := Uuid → Uuid → Option String

namespace RoleUpdates

/-- No role is written. -/
def nothing : RoleUpdates := fun _ _ => none

/-- One more role is written. -/
def set (updates : RoleUpdates) (organizationId userId : Uuid)
    (role : String) : RoleUpdates :=
  fun o u => if o = organizationId ∧ u = userId then some role else updates o u

/-- A new role for one membership. -/
def single (organizationId userId : Uuid) (role : String) : RoleUpdates :=
  nothing.set organizationId userId role

variable {o u o' u' : Uuid} {role : String}

theorem single_self : single o u role o u = some role := if_pos ⟨rfl, rfl⟩

theorem single_of_ne (h : o' ≠ o ∨ u' ≠ u) : single o u role o' u' = none := by
  refine if_neg ?_
  rintro ⟨ho, hu⟩
  exact h.elim (· ho) (· hu)

end RoleUpdates

namespace StoredMemberships

/-- The role of a user in an organization. -/
def role? (m : StoredMemberships) (organizationId userId : Uuid) :
    Option String :=
  (m.rows.find? fun row => row.ties organizationId userId).map
    StoredMembership.role

/-- How many owners an organization has. -/
def ownerCount (m : StoredMemberships) (organizationId : Uuid) : Nat :=
  m.rows.countP fun row =>
    row.organizationId == organizationId && row.role == OrgRole.owner.name

/-- A row with its new role, if it gets one. -/
def updateRow (updates : RoleUpdates) (row : StoredMembership) :
    StoredMembership :=
  { row with role := (updates row.organizationId row.userId).getD row.role }

/-- The memberships with new roles. -/
def update (m : StoredMemberships) (updates : RoleUpdates) :
    StoredMemberships where
  rows := m.rows.map (updateRow updates)
  unique := by
    rw [List.map_map]
    exact m.unique

variable {m : StoredMemberships} {updates : RoleUpdates} {o u : Uuid}
  {role previous : String}

/-- A row is found by its organization and its user. -/
theorem ties_iff {row : StoredMembership} :
    row.ties o u = true ↔ row.organizationId = o ∧ row.userId = u := by
  simp [StoredMembership.ties]

theorem ties_of_find? {rows : List StoredMembership} {row : StoredMembership}
    (h : rows.find? (fun row => row.ties o u) = some row) :
    row.organizationId = o ∧ row.userId = u :=
  ties_iff.1
    (List.find?_some (p := fun row : StoredMembership => row.ties o u) h)

/-- The role of a user is the one of the only row that there can be. -/
theorem role?_eq_some : m.role? o u = some role ↔ ⟨o, u, role⟩ ∈ m.rows := by
  unfold role?
  rw [Option.map_eq_some_iff]
  constructor
  · rintro ⟨row, hfind, rfl⟩
    obtain ⟨rfl, rfl⟩ := ties_of_find? hfind
    exact List.mem_of_find?_eq_some hfind
  · intro hmem
    cases hfind : m.rows.find? fun row => row.ties o u with
    | none =>
      exact absurd (ties_iff.2 ⟨rfl, rfl⟩) (List.find?_eq_none.1 hfind _ hmem)
    | some row =>
      obtain ⟨ho, hu⟩ := ties_of_find? hfind
      have hsame : row = ⟨o, u, role⟩ :=
        List.inj_on_of_nodup_map m.unique (List.mem_of_find?_eq_some hfind)
          hmem (Prod.ext ho hu)
      exact ⟨row, rfl, congrArg StoredMembership.role hsame⟩

/-- Writes change the roles of rows that are there and add no row. -/
theorem role?_update : (m.update updates).role? o u
    = (m.role? o u).map fun role => (updates o u).getD role := by
  unfold role? update
  rw [List.find?_map, Option.map_map, Option.map_map]
  refine Option.map_congr fun row hrow => ?_
  obtain ⟨rfl, rfl⟩ := ties_of_find? hrow
  rfl

/-- Without writes everything stays. -/
theorem update_nothing : m.update .nothing = m := by
  obtain ⟨rows, unique⟩ := m
  unfold update
  congr 1
  exact List.map_id _

/-- Writes in other organizations leave the number of owners alone. -/
theorem ownerCount_update_of_none (h : ∀ u, updates o u = none) :
    (m.update updates).ownerCount o = m.ownerCount o := by
  unfold ownerCount update
  rw [List.countP_map]
  refine List.countP_congr fun row _ => ?_
  by_cases ho : row.organizationId = o
  · subst ho
    simp [updateRow, h]
  · simp [updateRow, ho]

/-- There is an owner if and only if some user's role is that of one. -/
theorem ownerCount_pos_iff :
    0 < m.ownerCount o ↔ ∃ u, m.role? o u = some OrgRole.owner.name := by
  unfold ownerCount
  rw [List.countP_pos_iff]
  constructor
  · rintro ⟨⟨o', u, role⟩, hmem, howner⟩
    obtain ⟨rfl, rfl⟩ : o' = o ∧ role = OrgRole.owner.name := by
      simpa using howner
    exact ⟨u, role?_eq_some.2 hmem⟩
  · rintro ⟨u, hrole⟩
    exact ⟨_, role?_eq_some.1 hrole, by simp⟩

/-- Of several owners, one is somebody else. -/
theorem exists_other_owner (h : 1 < m.ownerCount o) (u : Uuid) :
    ∃ u', u' ≠ u ∧ m.role? o u' = some OrgRole.owner.name := by
  by_contra hnone
  -- All owners would be memberships of one user, and there is one at most.
  have hsame : ∀ row ∈ m.rows.filter fun row =>
      row.organizationId == o && row.role == OrgRole.owner.name,
      (row.organizationId, row.userId) = (o, u) := by
    rintro ⟨o', u', role⟩ hrow
    obtain ⟨hmem, howner⟩ := List.mem_filter.1 hrow
    obtain ⟨rfl, rfl⟩ : o' = o ∧ role = OrgRole.owner.name := by
      simpa using howner
    by_contra hne
    exact hnone ⟨u', fun hu => hne (Prod.ext rfl hu), role?_eq_some.2 hmem⟩
  have hunique : ((m.rows.filter fun row =>
      row.organizationId == o && row.role == OrgRole.owner.name).map fun row =>
        (row.organizationId, row.userId)).Nodup :=
    (List.filter_sublist.map _).nodup m.unique
  rw [List.map_congr_left hsame, List.map_const', List.nodup_replicate,
    ← List.countP_eq_length_filter] at hunique
  exact absurd hunique (Nat.not_le.2 h)

/-- A member whose role is not written keeps it. -/
theorem role?_update_of_none (h : updates o u = none) :
    (m.update updates).role? o u = m.role? o u := by
  rw [role?_update, h]
  exact Option.map_id'

/-- An owner remains where one membership gets a new role, unless it takes the
ownership away from the only owner. -/
theorem ownerCount_update_single_pos (howners : 0 < m.ownerCount o)
    (hrole : m.role? o u = some previous)
    (hothers : previous = OrgRole.owner.name → role ≠ OrgRole.owner.name →
      1 < m.ownerCount o) :
    0 < (m.update (.single o u role)).ownerCount o := by
  refine ownerCount_pos_iff.2 ?_
  by_cases hgrants : role = OrgRole.owner.name
  · exact ⟨u,
      by rw [role?_update, hrole, RoleUpdates.single_self, hgrants]; rfl⟩
  obtain ⟨u', hne, howner⟩ :
      ∃ u', u' ≠ u ∧ m.role? o u' = some OrgRole.owner.name := by
    by_cases hrevokes : previous = OrgRole.owner.name
    · exact exists_other_owner (hothers hrevokes hgrants) u
    · obtain ⟨u', howner⟩ := ownerCount_pos_iff.1 howners
      refine ⟨u', ?_, howner⟩
      rintro rfl
      exact hrevokes (Option.some.inj (hrole.symm.trans howner))
  exact ⟨u',
    by rw [role?_update_of_none (RoleUpdates.single_of_ne (.inr hne)), howner]⟩

end StoredMemberships

-- ======================================================= transactions

/-- Where a client is with its transaction. -/
inductive Phase where
  /-- Outside of any. -/
  | idle
  | begun
  /-- A statement has failed: all there is left to do is to end it. -/
  | failed
  /-- The client is gone. -/
  | gone
deriving DecidableEq

/-- What is committed, and what the transactions hold that are under way. -/
structure Database (ι : Type) where
  organizations : List Uuid
  memberships : StoredMemberships
  /-- By whom an organization's row is locked. -/
  locked : Uuid → Option ι
  /-- What each transaction has written. -/
  own : ι → RoleUpdates
  phase : ι → Phase

/-- What the statements of a change of role ask for. -/
inductive RoleCommand where
  | begin
  | lock (organizationId : Uuid)
  | read (organizationId userId : Uuid)
  | owners (organizationId : Uuid)
  | write (organizationId userId : Uuid) (role : String)
  | commit
  | rollback

namespace RoleCommand

open DatabaseDirectory

/-- What is shown where rows are counted. -/
def rowCount : List Lexeme :=
  [.word "count", .symbol "(", .symbol "*", .symbol ")"]

/-- What a command asks for with the values of its parameters, if it is one of
these. -/
def ofCommand? (params : List Param) : Command → Option RoleCommand
  | .begin => some .begin
  | .commit => some .commit
  | .rollback => some .rollback
  | .select shown table condition locks =>
    match table, locks, condition.values? params with
    | "organizations", true, some [("id", .uuid o)] =>
      if shown = [.word "id"] then some (.lock o) else none
    | "memberships", false,
        some [("organization_id", .uuid o), ("user_id", .uuid u)] =>
      if shown = [.word "role"] then some (.read o u) else none
    | "memberships", false,
        some [("organization_id", .uuid o), ("role", .text (some name))] =>
      if shown = rowCount ∧ name = OrgRole.owner.name then some (.owners o)
      else none
    | _, _, _ => none
  | .update table column source condition =>
    match table, column, source.value? params, condition.values? params with
    | "memberships", "role", some (.text (some role)),
        some [("organization_id", .uuid o), ("user_id", .uuid u)] =>
      some (.write o u role)
    | _, _, _, _ => none

/-- What a statement asks for, as its text is read. -/
def ofStatement? (statement : Statement) : Option RoleCommand :=
  (command? statement.text).bind (ofCommand? statement.params)

/-- A statement does what its text parses to, with its parameters for the
placeholders. -/
theorem ofStatement?_of_command {text : String} {params : List Param}
    (command : Command) (h : command? text = some command) :
    ofStatement? ⟨text, params⟩ = ofCommand? params command := by
  unfold ofStatement?
  rw [h]
  rfl

variable {o u : Uuid} {role : OrgRole}

theorem ofStatement?_begin :
    ofStatement? SqlProgram.begin_ = some .begin :=
  ofStatement?_of_command .begin (by decide +kernel)

theorem ofStatement?_commit :
    ofStatement? SqlProgram.commit = some .commit :=
  ofStatement?_of_command .commit (by decide +kernel)

theorem ofStatement?_rollback :
    ofStatement? SqlProgram.rollback = some .rollback :=
  ofStatement?_of_command .rollback (by decide +kernel)

/-- The lock is a query FOR UPDATE of the organization's row. -/
theorem ofStatement?_lockOrganization :
    ofStatement? (lockOrganization o) = some (.lock o) :=
  ofStatement?_of_command
    (.select [.word "id"] "organizations" [("id", .placeholder 1)] true)
    (by decide +kernel)

/-- The role that is read is that of one organization and user. -/
theorem ofStatement?_selectRole :
    ofStatement? (selectRole o u) = some (.read o u) :=
  ofStatement?_of_command
    (.select [.word "role"] "memberships"
      [("organization_id", .placeholder 1), ("user_id", .placeholder 2)] false)
    (by decide +kernel)

/-- The rows that are counted are the owners of one organization. -/
theorem ofStatement?_countOwners :
    ofStatement? (countOwners o) = some (.owners o) :=
  ofStatement?_of_command
    (.select rowCount "memberships"
      [("organization_id", .placeholder 1), ("role", .literal "owner")] false)
    (by decide +kernel)

/-- The role that is written is that of one organization and user. -/
theorem ofStatement?_updateRole :
    ofStatement? (updateRole o u role) = some (.write o u role.name) :=
  ofStatement?_of_command
    (.update "memberships" "role" (.placeholder 1)
      [("organization_id", .placeholder 2), ("user_id", .placeholder 3)])
    (by decide +kernel)

end RoleCommand

namespace Database

variable {ι : Type} {db db' : Database ι} {i j : ι} {command : RoleCommand}
  {reply : Option (Except Failure Reply)}

/-- The memberships as a transaction sees them. -/
def view (db : Database ι) (i : ι) : StoredMemberships :=
  db.memberships.update (db.own i)

/-- A client that has written nothing sees what is committed. -/
theorem view_of_nothing (h : db.own i = .nothing) :
    db.view i = db.memberships := by
  unfold view
  rw [h, StoredMemberships.update_nothing]

/-- A client has an organization locked. -/
def locking (db : Database ι) (i : ι) (o : Uuid) : Database ι :=
  { db with locked := Function.update db.locked o (some i) }

/-- Nothing that a transaction has or holds is different. -/
structure Apart (i : ι) (db db' : Database ι) : Prop where
  organizations : db'.organizations = db.organizations
  own : db'.own i = db.own i
  phase : db'.phase i = db.phase i
  locked : ∀ o, db.locked o = some i → db'.locked o = some i

theorem Apart.refl : Apart i db db := ⟨rfl, rfl, rfl, fun _ h => h⟩

/-- A lock that another client gets was free. -/
theorem apart_locking (hne : j ≠ i) {o : Uuid}
    (hfree : db.locked o = none ∨ db.locked o = some j) :
    Apart i db (db.locking j o) where
  organizations := rfl
  own := rfl
  phase := rfl
  locked o' h := by
    have hother : o' ≠ o := by
      rintro rfl
      rcases hfree with hnone | hother
      · cases hnone.symm.trans h
      · exact hne (Option.some.inj (hother.symm.trans h))
    exact (Function.update_of_ne hother _ _).trans h

variable [DecidableEq ι]

/-- Drop what a transaction has written, and give back its locks. -/
def release (db : Database ι) (i : ι) (phase : Phase) : Database ι :=
  { db with
    locked := fun o => (db.locked o).filter fun j => j ≠ i
    own := Function.update db.own i .nothing
    phase := Function.update db.phase i phase }

/-- A client is in a transaction. -/
def beginning (db : Database ι) (i : ι) : Database ι :=
  { db with phase := Function.update db.phase i .begun }

/-- A client has written a role that it alone can see. -/
def writing (db : Database ι) (i : ι) (o u : Uuid) (role : String) :
    Database ι :=
  { db with own := Function.update db.own i ((db.own i).set o u role) }

/-- What a client has written is there for everyone. -/
def committing (db : Database ι) (i : ι) : Database ι :=
  { db.release i .idle with memberships := db.view i }

/-- What a statement of a transaction may be answered, nothing while it waits,
and what becomes of the database. -/
inductive Answers (i : ι) (db : Database ι) :
    RoleCommand → Option (Except Failure Reply) → Database ι → Prop
  | waits {command : RoleCommand} : Answers i db command none db
  /-- The client is gone: its transaction is rolled back. -/
  | drops {command : RoleCommand} :
      Answers i db command none (db.release i .gone)
  /-- Outside of a transaction, or in one that has failed, nothing comes of
  it. -/
  | refuses {command : RoleCommand} {failure : Failure}
      (phase : db.phase i = .idle ∨ db.phase i = .failed) :
    Answers i db command (some (.error failure)) db
  /-- A statement that fails takes its transaction with it. -/
  | fails {command : RoleCommand} {failure : Failure}
      (phase : db.phase i = .begun) :
    Answers i db command (some (.error failure)) (db.release i .failed)
  | begins {reply : Reply} (phase : db.phase i = .idle) :
    Answers i db .begin (some (.ok reply)) (db.beginning i)
  /-- An organization's row is locked for one transaction at a time, and until
  that one ends. -/
  | locks {o : Uuid} {reply : Reply} (phase : db.phase i = .begun)
      (row : o ∈ db.organizations)
      (free : db.locked o = none ∨ db.locked o = some i) :
    Answers i db (.lock o) (some (.ok reply)) (db.locking i o)
  | locksNothing {o : Uuid} {reply : Reply} (phase : db.phase i = .begun)
      (row : o ∉ db.organizations) :
    Answers i db (.lock o) (some (.ok reply)) db
  /-- A statement sees what is committed when it is made, and what its
  transaction has written. -/
  | reads {o u : Uuid} {reply : Reply} (phase : db.phase i = .begun)
      (rows : reply.rows
        = ((db.view i).role? o u).toList.map fun role =>
          [("role", Value.text role)]) :
    Answers i db (.read o u) (some (.ok reply)) db
  | counts {o : Uuid} {reply : Reply} (phase : db.phase i = .begun)
      (rows : reply.rows
        = [[("count", Value.int8 ((db.view i).ownerCount o))]]) :
    Answers i db (.owners o) (some (.ok reply)) db
  /-- Who else has written the row is left open: the lock keeps the writers
  apart. -/
  | writes {o u : Uuid} {role : String} {reply : Reply}
      (phase : db.phase i = .begun) :
    Answers i db (.write o u role) (some (.ok reply)) (db.writing i o u role)
  | commits {reply : Reply} (phase : db.phase i = .begun) :
    Answers i db .commit (some (.ok reply)) (db.committing i)
  /-- A transaction that has failed is rolled back by a COMMIT as well. -/
  | commitsNothing {reply : Reply} (phase : db.phase i = .failed) :
    Answers i db .commit (some (.ok reply)) (db.release i .idle)
  | rollsBack {reply : Reply}
      (phase : db.phase i = .begun ∨ db.phase i = .failed) :
    Answers i db .rollback (some (.ok reply)) (db.release i .idle)

-- ============================================================== apart

/-- A client that ends gives up its own locks and no other's. -/
theorem apart_release (hne : j ≠ i) (phase : Phase) :
    Apart i db (db.release j phase) where
  organizations := rfl
  own := Function.update_of_ne hne.symm _ _
  phase := Function.update_of_ne hne.symm _ _
  locked o h := by simp [release, h, hne.symm]

/-- The answer to one transaction is nothing to another one. -/
theorem Answers.apart (h : Answers j db command reply db') (hne : j ≠ i) :
    Apart i db db' := by
  cases h with
  | waits => exact .refl
  | drops => exact apart_release hne .gone
  | refuses phase => exact .refl
  | fails phase => exact apart_release hne .failed
  | begins phase =>
    exact ⟨rfl, rfl, Function.update_of_ne hne.symm _ _, fun _ h => h⟩
  | locks phase row free => exact apart_locking hne free
  | locksNothing phase row => exact .refl
  | reads phase rows => exact .refl
  | counts phase rows => exact .refl
  | writes phase =>
    exact ⟨rfl, Function.update_of_ne hne.symm _ _, rfl, fun _ h => h⟩
  | commits phase =>
    obtain ⟨-, hown, hphase, hlocked⟩ : Apart i db (db.release j .idle) :=
      apart_release hne .idle
    exact ⟨rfl, hown, hphase, hlocked⟩
  | commitsNothing phase => exact apart_release hne .idle
  | rollsBack phase => exact apart_release hne .idle

/-- Organizations come and go by none of these statements. -/
theorem Answers.organizations (h : Answers i db command reply db') :
    db'.organizations = db.organizations := by
  cases h <;> rfl

/-- Committed memberships change at a COMMIT only. -/
theorem Answers.memberships (h : Answers i db command reply db')
    (hcommand : command ≠ .commit) : db'.memberships = db.memberships := by
  cases h with
  | commits phase => exact absurd rfl hcommand
  | _ => rfl

/-- A client that ends is in the phase that it ends in. -/
theorem release_phase {phase : Phase} : (db.release i phase).phase i = phase :=
  Function.update_self _ _ _

/-- A client that is gone waits for ever. -/
theorem Answers.of_gone (h : Answers i db command reply db')
    (hgone : db.phase i = .gone) :
    reply = none ∧ db'.phase i = .gone ∧ db'.memberships = db.memberships := by
  cases h with
  | waits => exact ⟨rfl, hgone, rfl⟩
  | drops => exact ⟨rfl, release_phase, rfl⟩
  | refuses phase | rollsBack phase =>
    rcases phase with phase | phase <;> cases hgone.symm.trans phase
  | fails phase | begins phase | locks phase | locksNothing phase | reads phase
  | counts phase
  | writes phase | commits phase
  | commitsNothing phase => cases hgone.symm.trans phase

-- ========================================================== databases

variable {κ σ : Type}

/-- At every turn a database answers the statements of a change of role like
this. -/
def ReadCommitted (turns : Program.Turns serverInterface ι κ σ)
    (state : σ → Database ι) : Prop :=
  ∀ turn statement command s,
    RoleCommand.ofStatement? statement = some command →
    Answers (turns.who turn) (state s) command
      (turns.answer turn statement s).1
      (state (turns.answer turn statement s).2)

/-- Nothing is under way. -/
def AtRest (db : Database ι) : Prop :=
  ∀ i, db.phase i = .idle ∧ db.own i = .nothing

/-- A database without transactions. -/
def ofTables (organizations : List Uuid) (memberships : StoredMemberships) :
    Database ι where
  organizations := organizations
  memberships := memberships
  locked _ := none
  own _ := .nothing
  phase _ := .idle

/-- What a database answers in which nothing fails. -/
def answer (db : Database ι) (i : ι) (command : RoleCommand) :
    Option (Except Failure Reply) × Database ι :=
  match db.phase i, command with
  | .idle, .begin => (some (.ok ⟨[], 0⟩), db.beginning i)
  | .begun, .lock o =>
    if o ∉ db.organizations then (some (.ok ⟨[], 0⟩), db)
    else if db.locked o = none ∨ db.locked o = some i then
      (some (.ok ⟨[[("id", .uuid o)]], 1⟩), db.locking i o)
    else (none, db)
  | .begun, .read o u =>
    let rows :=
      ((db.view i).role? o u).toList.map fun role =>
        [("role", Value.text role)]
    (some (.ok ⟨rows, rows.length⟩), db)
  | .begun, .owners o =>
    (some (.ok ⟨[[("count", .int8 ((db.view i).ownerCount o))]], 1⟩), db)
  | .begun, .write o u role =>
    (some (.ok ⟨[], ((db.view i).role? o u).toList.length⟩),
      db.writing i o u role)
  | .begun, .commit => (some (.ok ⟨[], 0⟩), db.committing i)
  | .begun, .rollback => (some (.ok ⟨[], 0⟩), db.release i .idle)
  | _, _ => (none, db)

/-- The small server is one that answers as databases do. -/
theorem answers_answer (db : Database ι) (i : ι) (command : RoleCommand) :
    Answers i db command (db.answer i command).1 (db.answer i command).2 := by
  unfold answer
  split
  next phase => exact .begins phase
  next phase =>
    split_ifs with hrow hfree
    · exact .locks phase hrow hfree
    · exact .waits
    · exact .locksNothing phase hrow
  next phase => exact .reads phase rfl
  next phase => exact .counts phase rfl
  next phase => exact .writes phase
  next phase => exact .commits phase
  next phase => exact .rollsBack (.inl phase)
  next => exact .waits

/-- A database in which nothing fails. -/
def turns : Program.Turns serverInterface ι ι (Database ι) where
  who := id
  answer i statement db :=
    match RoleCommand.ofStatement? statement with
    | some command => db.answer i command
    | none => (none, db)

/-- And so are the turns that it is given. -/
theorem readCommitted_turns :
    ReadCommitted (turns : Program.Turns serverInterface ι ι (Database ι))
      id := by
  intro i statement command db hcommand
  unfold turns
  simp only [hcommand]
  exact answers_answer db i command

end Database

end Tenancy
