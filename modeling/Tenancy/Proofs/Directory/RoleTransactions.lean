/-
Changes of role side by side, statement by statement. Every transaction
locks the row of its organization before it looks at a membership, and
keeps the lock until it is over. So what it has read stays as it was
read: while it holds the lock, whoever commits has written in another
organization (`Steps.elsewhere`). The count of owners is still the count
when the role is written, and an owner remains.

The invariant says of each transaction how far its program has come, and
what it knows of the database then (`Standing`). A turn takes the program
on by a statement or ends it (`Standing.steps`); what the others do
leaves it where it is (`Standing.apart`). The committed memberships
change at one kind of turn only, the one at which a transaction commits
and returns that it has updated the role (`Commits`). What holds of whole
schedules (`role_writes_keep_an_owner`) follows from these.
-/
import Mathlib.Data.List.Induction
import Tenancy.Directory.Database
import Tenancy.Proofs.Directory.Sessions
import Tenancy.Proofs.Uuid

namespace Tenancy

open Sql Program

/-- A change of a member's role, as it is asked of the database. -/
structure RoleWrite where
  organizationId : Uuid
  userId : Uuid
  role : OrgRole

/-- What a transaction goes on with, until it returns. -/
abbrev RoleClient := Program serverInterface (Except DatabaseError RoleChange)

/-- The text that a role was read from is its name. -/
theorem OrgRole.name_of_ofName? {text : String} {role : OrgRole}
    (h : OrgRole.ofName? text = some role) : role.name = text :=
  eq_of_beq (List.find?_some (p := fun role : OrgRole => role.name == text) h)

/-- No two roles are spelled alike. -/
theorem OrgRole.name_injective : Function.Injective OrgRole.name :=
  fun role role' h =>
  Option.some.inj
    ((ofName?_name role).symm.trans
      ((congrArg ofName? h).trans (ofName?_name role')))

namespace RoleWrite

/-- The change of role as a client runs it, to its commit or its rollback. -/
def program (t : RoleWrite) : RoleClient :=
  ExceptT.run
    (DatabaseDirectory.setMemberRole t.organizationId t.userId t.role)

/-- What it makes of the memberships. -/
def update (t : RoleWrite) : RoleUpdates :=
  RoleUpdates.single t.organizationId t.userId t.role.name

/-- A write concerns its own organization only. -/
theorem update_of_ne {t : RoleWrite} {o : Uuid} (h : o ≠ t.organizationId)
    (u : Uuid) : t.update o u = none := RoleUpdates.single_of_ne (.inl h)

-- ========================================================== programs

/-- The client is done and undoes its transaction. -/
def rollingBack (result : Except DatabaseError RoleChange) : RoleClient :=
  .ask SqlProgram.rollback fun _ => .done result

/-- The role is written; the transaction is still to be committed. -/
def committing (previous : OrgRole) : RoleClient :=
  .ask SqlProgram.commit fun
    | .ok _ => .done (.ok (.updated previous))
    | .error e => .done (.error (.sql e))

/-- The role may change and is written next. -/
def updating (t : RoleWrite) (previous : OrgRole) : RoleClient :=
  .ask (DatabaseDirectory.updateRole t.organizationId t.userId t.role) fun
    | .ok _ => committing previous
    | .error e => rollingBack (.error (.sql e))

/-- By the number of owners: write, or leave the last one. -/
def counted (t : RoleWrite) (previous : OrgRole) (reply : Reply) :
    RoleClient :=
  match (reply.one >>= Row.scalar : Except Failure Int) with
  | .ok owners =>
    if owners ≤ 1 then rollingBack (.ok .lastOwner) else t.updating previous
  | .error e => rollingBack (.error (.sql e))

/-- The role of an owner is to change, so owners are counted first. -/
def counting (t : RoleWrite) (previous : OrgRole) : RoleClient :=
  .ask (DatabaseDirectory.countOwners t.organizationId) fun
    | .ok reply => t.counted previous reply
    | .error e => rollingBack (.error (.sql e))

/-- By the role that a membership has: count the owners first, or write. -/
def named (t : RoleWrite) (text : String) : RoleClient :=
  match OrgRole.ofName? text with
  | some previous =>
    if previous = .owner ∧ t.role ≠ .owner then t.counting previous
    else t.updating previous
  | none => rollingBack (.error (.decode "role" text))

/-- The row that was looked for is there, or it is not. -/
def found (t : RoleWrite) (reply : Reply) : RoleClient :=
  match reply.rows with
  | [] => rollingBack (.ok .notMember)
  | row :: _ =>
    match (row.get "role" : Except Failure String) with
    | .ok text => t.named text
    | .error e => rollingBack (.error (.sql e))

/-- The organization is locked, and the member's role is read. -/
def reading (t : RoleWrite) : RoleClient :=
  .ask (DatabaseDirectory.selectRole t.organizationId t.userId) fun
    | .ok reply => t.found reply
    | .error e => rollingBack (.error (.sql e))

/-- The transaction has begun, and the organization is locked. -/
def locking (t : RoleWrite) : RoleClient :=
  .ask (DatabaseDirectory.lockOrganization t.organizationId) fun
    | .ok _ => t.reading
    | .error e => rollingBack (.error (.sql e))

/-- The transaction begins. -/
def beginning (t : RoleWrite) : RoleClient :=
  .ask SqlProgram.begin_ fun
    | .ok _ => t.locking
    | .error e => .done (.error (.sql e))

/-- What a transaction does with the outcome of its body. -/
def closing : Except DatabaseError (RoleChange × Bool) → RoleClient
  | .error e => rollingBack (.error e)
  | .ok (change, false) => rollingBack (.ok change)
  | .ok (change, true) =>
    .ask SqlProgram.commit fun
      | .ok _ => .done (.ok change)
      | .error e => .done (.error (.sql e))

section parts

variable {α β : Type} {t : RoleWrite} {previous : OrgRole}

/-- Clients that go on alike, whatever the answer, are alike. -/
theorem ask_congr {call : Statement}
    {next next' : Except Failure Reply → RoleClient}
    (h : ∀ answer, next answer = next' answer) :
    (Program.ask call next : RoleClient) = .ask call next' :=
  congrArg _ (funext h)

/-- A statement is asked for, and a failure of it ends the query. -/
theorem run_bind_statement {statement : Statement}
    {f : Reply → DatabaseDirectory.Query α} :
    ExceptT.run (DatabaseDirectory.run statement >>= f)
      = .ask statement fun
        | .ok reply => ExceptT.run (f reply)
        | .error e => .done (.error (.sql e)) := by
  refine congrArg (Program.ask _) (funext fun answer => ?_)
  cases answer <;> rfl

/-- A reply that does not decode ends the query. -/
theorem run_bind_check {result : Except Failure α}
    {f : α → DatabaseDirectory.Query β} :
    ExceptT.run (SqlProgram.check DatabaseError.sql result >>= f)
      = match result with
        | .ok a => ExceptT.run (f a)
        | .error e => .done (.error (.sql e)) := by
  cases result <;> rfl

/-- A role is decoded from its text, or the query ends. -/
theorem run_bind_role {row : Row} {column : String}
    {f : OrgRole → DatabaseDirectory.Query α} :
    ExceptT.run (DatabaseDirectory.named OrgRole.ofName? row column >>= f)
      = match (row.get column : Except Failure String) with
        | .ok text =>
          match OrgRole.ofName? text with
          | some role => ExceptT.run (f role)
          | none => .done (.error (.decode column text))
        | .error e => .done (.error (.sql e)) := by
  unfold DatabaseDirectory.named DatabaseDirectory.column
  rw [bind_assoc, run_bind_check]
  cases (row.get column : Except Failure String) with
  | error e => rfl
  | ok text =>
    simp only
    cases OrgRole.ofName? text <;> rfl

/-- The end of the query is what `updating` writes out. -/
theorem updating_eq :
    (ExceptT.run (do
      let _ ← DatabaseDirectory.run
        (DatabaseDirectory.updateRole t.organizationId t.userId t.role)
      return (RoleChange.updated previous, true))).bind closing
        = t.updating previous := by
  rw [run_bind_statement]
  refine ask_congr fun answer => ?_
  cases answer <;> rfl

/-- So is the part that counts the owners. -/
theorem counting_eq :
    (ExceptT.run (do
      let reply ←
        DatabaseDirectory.run (DatabaseDirectory.countOwners t.organizationId)
      let owners : Int ←
        SqlProgram.check DatabaseError.sql (reply.one >>= Row.scalar)
      if owners ≤ 1 then return (RoleChange.lastOwner, false)
      let _ ← DatabaseDirectory.run
        (DatabaseDirectory.updateRole t.organizationId t.userId t.role)
      return (RoleChange.updated previous, true))).bind closing
        = t.counting previous := by
  rw [run_bind_statement]
  refine ask_congr fun answer => ?_
  cases answer with
  | error e => rfl
  | ok reply =>
    simp only [run_bind_check]
    unfold counted
    cases (reply.one >>= Row.scalar : Except Failure Int) with
    | error e => rfl
    | ok owners =>
      by_cases hlast : owners ≤ 1
      · simp only [if_pos hlast]
        rfl
      · simp only [if_neg hlast]
        exact updating_eq

/-- So is the whole query, from its lock on. -/
theorem locking_eq :
    (ExceptT.run
      (DatabaseDirectory.changeRole t.organizationId t.userId t.role)).bind
        closing
      = t.locking := by
  unfold DatabaseDirectory.changeRole DatabaseDirectory.selectFirst
  rw [run_bind_statement]
  refine ask_congr fun answer => ?_
  cases answer with
  | error e => rfl
  | ok reply =>
    simp only [bind_assoc]
    rw [run_bind_statement]
    refine ask_congr fun answer => ?_
    cases answer with
    | error e => rfl
    | ok reply =>
      obtain ⟨rows, affected⟩ := reply
      cases rows with
      | nil => rfl
      | cons row rows =>
        simp only [SqlProgram.firstRow, bind_assoc, pure_bind, run_bind_role,
          found]
        cases (row.get "role" : Except Failure String) with
        | error e => rfl
        | ok text =>
          show Program.bind
              (match OrgRole.ofName? text with | some _ => _ | none => _)
              closing
            = t.named text
          unfold named
          cases OrgRole.ofName? text with
          | none => rfl
          | some previous =>
            by_cases hrevokes : previous = .owner ∧ t.role ≠ .owner
            · simp only [if_pos hrevokes]
              exact counting_eq
            · simp only [if_neg hrevokes]
              exact updating_eq

/-- The program, statement by statement. -/
theorem program_eq (t : RoleWrite) : t.program = t.beginning := by
  unfold program DatabaseDirectory.setMemberRole SqlProgram.transaction
  refine ask_congr fun answer => ?_
  cases answer with
  | error e => rfl
  | ok reply =>
    rw [← locking_eq]
    show (ExceptT.run (DatabaseDirectory.changeRole _ _ _)).bind _ = _
    refine congrArg (Program.bind _) (funext fun result => ?_)
    rcases result with e | ⟨change, _ | _⟩ <;> rfl

end parts

/-- What a program has returned to have updated, if it has. -/
def updated? : RoleClient → Option OrgRole
  | .done (.ok (.updated previous)) => some previous
  | _ => none

/-- The one way to have updated a role is to have returned so. -/
theorem updated?_eq_some {p : RoleClient} {previous : OrgRole}
    (h : updated? p = some previous) :
    p = .done (.ok (.updated previous)) := by
  unfold updated? at h
  split at h
  · cases h
    rfl
  · cases h

-- =========================================================== invariant

section invariant

open Database

variable {ι : Type}

/-- A transaction is under way, and this is what it has written. -/
structure Within (i : ι) (db : Database ι) (updates : RoleUpdates) : Prop where
  phase : db.phase i = .begun
  own : db.own i = updates

/-- The lock on the organization, if there is something to lock. -/
def Locks (t : RoleWrite) (i : ι) (db : Database ι) : Prop :=
  t.organizationId ∈ db.organizations → db.locked t.organizationId = some i

/-- The role that has been read is still the committed one. -/
def Finds (t : RoleWrite) (db : Database ι) (previous : OrgRole) : Prop :=
  t.organizationId ∈ db.organizations →
    db.memberships.role? t.organizationId t.userId = some previous.name

/-- The write does not take the ownership away from the only owner. -/
def Spares (t : RoleWrite) (db : Database ι) (previous : OrgRole) : Prop :=
  t.organizationId ∈ db.organizations → previous = .owner → t.role ≠ .owner →
    1 < db.memberships.ownerCount t.organizationId

/-- How far a transaction has come, and what it knows of the database then. -/
inductive Standing (t : RoleWrite) (i : ι) (db : Database ι) :
    RoleClient → Prop
  | beginning (phase : db.phase i = .idle) (own : db.own i = .nothing) :
      Standing t i db t.beginning
  | locking (within : Within i db .nothing) : Standing t i db t.locking
  | reading (within : Within i db .nothing) (locks : Locks t i db) :
      Standing t i db t.reading
  | counting {previous : OrgRole} (within : Within i db .nothing)
      (locks : Locks t i db)
      (finds : Finds t db previous) : Standing t i db (t.counting previous)
  | updating {previous : OrgRole} (within : Within i db .nothing)
      (locks : Locks t i db)
      (finds : Finds t db previous) (spares : Spares t db previous) :
    Standing t i db (t.updating previous)
  | committing {previous : OrgRole} (within : Within i db t.update)
      (locks : Locks t i db)
      (finds : Finds t db previous) (spares : Spares t db previous) :
    Standing t i db (committing previous)
  | rollingBack {result : Except DatabaseError RoleChange}
      (unchanged : updated? (.done result) = none) :
    Standing t i db (rollingBack result)
  | ended {result : Except DatabaseError RoleChange} :
      Standing t i db (.done result)
  | gone {statement : Statement} {next : Except Failure Reply → RoleClient}
      {command : RoleCommand} (phase : db.phase i = .gone)
      (asks : RoleCommand.ofStatement? statement = some command) :
    Standing t i db (.ask statement next)

/-- A turn at which nothing is committed. -/
structure Passes (before after : RoleClient × Database ι) : Prop where
  memberships : after.2.memberships = before.2.memberships
  result : updated? after.1 = updated? before.1

/-- The turn at which a transaction commits, and returns what it has
updated. -/
structure Commits (t : RoleWrite) (i : ι)
    (before after : RoleClient × Database ι) (previous : OrgRole) : Prop where
  unfinished : updated? before.1 = none
  locks : Locks t i before.2
  finds : Finds t before.2 previous
  spares : Spares t before.2 previous
  memberships : after.2.memberships = before.2.memberships.update t.update
  result : updated? after.1 = some previous

/-- What a turn of a transaction does: the transaction goes on, and may have
committed. -/
structure Steps (t : RoleWrite) (i : ι)
    (before after : RoleClient × Database ι) : Prop where
  standing : Standing t i after.2 after.1
  commits : Passes before after ∨ ∃ previous, Commits t i before after previous

variable {t : RoleWrite} {i j : ι} {db db' : Database ι} {p : RoleClient}
  {previous : OrgRole}

/-- What others do leaves a transaction where it is, if nothing becomes of its
organization while it holds the lock. -/
theorem Standing.apart (h : Standing t i db p) (hapart : Apart i db db')
    (hothers : t.organizationId ∈ db.organizations →
      db.locked t.organizationId = some i →
      ∃ updates, db'.memberships = db.memberships.update updates
        ∧ ∀ u, updates t.organizationId u = none) :
    Standing t i db' p := by
  have hwithin {updates : RoleUpdates} (within : Within i db updates) :
      Within i db' updates :=
    ⟨hapart.phase.trans within.phase, hapart.own.trans within.own⟩
  have hlocks (locks : Locks t i db) : Locks t i db' := fun hmem =>
    hapart.locked _ (locks (hapart.organizations ▸ hmem))
  have hfinds {previous : OrgRole} (locks : Locks t i db)
    (finds : Finds t db previous) :
      Finds t db' previous := fun hmem => by
    rw [hapart.organizations] at hmem
    obtain ⟨updates, hmemberships, hnone⟩ := hothers hmem (locks hmem)
    rw [hmemberships, StoredMemberships.role?_update_of_none (hnone _)]
    exact finds hmem
  have hspares {previous : OrgRole} (locks : Locks t i db)
    (spares : Spares t db previous) :
      Spares t db' previous := fun hmem => by
    rw [hapart.organizations] at hmem
    obtain ⟨updates, hmemberships, hnone⟩ := hothers hmem (locks hmem)
    rw [hmemberships, StoredMemberships.ownerCount_update_of_none hnone]
    exact spares hmem
  cases h with
  | beginning phase own =>
    exact .beginning (hapart.phase.trans phase) (hapart.own.trans own)
  | locking within => exact .locking (hwithin within)
  | reading within locks => exact .reading (hwithin within) (hlocks locks)
  | counting within locks finds =>
    exact .counting (hwithin within) (hlocks locks) (hfinds locks finds)
  | updating within locks finds spares =>
    exact .updating (hwithin within) (hlocks locks) (hfinds locks finds)
      (hspares locks spares)
  | committing within locks finds spares =>
    exact .committing (hwithin within) (hlocks locks) (hfinds locks finds)
      (hspares locks spares)
  | rollingBack unchanged => exact .rollingBack unchanged
  | ended => exact .ended
  | gone phase asks => exact .gone (hapart.phase.trans phase) asks

/-- Whoever commits has written elsewhere than where another one holds the
lock. -/
theorem Steps.elsewhere {before after : RoleClient × Database ι} {o : Uuid}
    (h : Steps t j before after) (hne : j ≠ i)
    (hmem : o ∈ before.2.organizations)
    (hlocked : before.2.locked o = some i) :
    ∃ updates, after.2.memberships = before.2.memberships.update updates
      ∧ ∀ u, updates o u = none := by
  rcases h.commits with hpasses | ⟨previous, hcommits⟩
  · exact ⟨.nothing,
      hpasses.memberships.trans StoredMemberships.update_nothing.symm,
      fun _ => rfl⟩
  · refine ⟨t.update, hcommits.memberships, update_of_ne ?_⟩
    rintro rfl
    exact hne (Option.some.inj ((hcommits.locks hmem).symm.trans hlocked))

/-- Owners that are counted under the lock stay counted. -/
theorem standing_counted {reply : Reply} (within : Within i db .nothing)
    (locks : Locks t i db) (finds : Finds t db previous)
    (hrows : reply.rows
      = [[("count", Value.int8 ((db.view i).ownerCount t.organizationId))]]) :
    Standing t i db (t.counted previous reply)
      ∧ updated? (t.counted previous reply) = none := by
  have hcounted : t.counted previous reply
      = if (db.memberships.ownerCount t.organizationId : Int) ≤ 1 then
          rollingBack (.ok .lastOwner)
        else t.updating previous := by
    obtain ⟨_, affected⟩ := reply
    subst hrows
    rw [← view_of_nothing within.own]
    rfl
  rw [hcounted]
  split_ifs with hlast
  · exact ⟨.rollingBack rfl, rfl⟩
  · exact ⟨.updating within locks finds fun _ _ _ => by omega, rfl⟩

/-- A role that is read under the lock stays the member's role. -/
theorem standing_named {text : String} (within : Within i db .nothing)
    (locks : Locks t i db)
    (hrole : db.memberships.role? t.organizationId t.userId = some text) :
    Standing t i db (t.named text) ∧ updated? (t.named text) = none := by
  unfold named
  cases hname : OrgRole.ofName? text with
  | none => exact ⟨.rollingBack rfl, rfl⟩
  | some previous =>
    have hfinds : Finds t db previous :=
      fun _ => by rw [hrole, OrgRole.name_of_ofName? hname]
    by_cases hrevokes : previous = .owner ∧ t.role ≠ .owner
    · simp only [if_pos hrevokes]
      exact ⟨.counting within locks hfinds, rfl⟩
    · simp only [if_neg hrevokes]
      exact ⟨.updating within locks hfinds fun _ howner hrole =>
        absurd ⟨howner, hrole⟩ hrevokes, rfl⟩

/-- So does the row that it is read from. -/
theorem standing_found {reply : Reply} (within : Within i db .nothing)
    (locks : Locks t i db)
    (hrows : reply.rows
      = ((db.view i).role? t.organizationId t.userId).toList.map fun role =>
      [("role", Value.text role)]) :
    Standing t i db (t.found reply) ∧ updated? (t.found reply) = none := by
  rw [view_of_nothing within.own] at hrows
  unfold found
  rw [hrows]
  cases hrole : db.memberships.role? t.organizationId t.userId with
  | none => exact ⟨.rollingBack rfl, rfl⟩
  | some text => exact standing_named within locks hrole

variable [DecidableEq ι] {statement : Statement}
  {next : Except Failure Reply → RoleClient}
  {command : RoleCommand} {reply : Option (Except Failure Reply)}

/-- Within a transaction a statement may wait or fail; what matters is what
follows where it is answered. -/
theorem steps_of_statement (hstanding : Standing t i db (.ask statement next))
    (hcommand : RoleCommand.ofStatement? statement = some command)
    (hcommit : command ≠ .commit)
    (hfails : ∀ failure, ∃ e, next (.error failure) = rollingBack (.error e))
    (hruns : ∀ reply db', Answers i db command (some (.ok reply)) db' →
      Standing t i db' (next (.ok reply)) ∧ updated? (next (.ok reply)) = none)
    (h : Answers i db command reply db') :
    Steps t i (.ask statement next, db)
      (reply.elim (.ask statement next) next, db') := by
  have hmemberships := h.memberships hcommit
  rcases reply with _ | failure | reply
  · cases h with
    | waits => exact ⟨hstanding, .inl ⟨rfl, rfl⟩⟩
    | drops => exact ⟨.gone release_phase hcommand, .inl ⟨rfl, rfl⟩⟩
  · obtain ⟨e, he⟩ := hfails failure
    have hnext : updated? (next (.error failure)) = none :=
      congrArg updated? he
    refine ⟨?_, .inl ⟨hmemberships, hnext⟩⟩
    show Standing t i db' (next (.error failure))
    rw [he]
    exact .rollingBack rfl
  · obtain ⟨hthen, hresult⟩ := hruns reply db' h
    exact ⟨hthen, .inl ⟨hmemberships, hresult⟩⟩

/-- A transaction that is not over makes one of its statements, and goes on. -/
theorem Standing.steps (h : Standing t i db p) :
    (∃ result, p = .done result)
      ∨ ∃ statement next command, p = .ask statement next
        ∧ RoleCommand.ofStatement? statement = some command
        ∧ ∀ reply db', Answers i db command reply db' →
          Steps t i (p, db) (reply.elim p next, db') := by
  cases h with
  | ended => exact .inl ⟨_, rfl⟩
  | beginning phase own =>
    refine .inr
      ⟨_, _, _, rfl, RoleCommand.ofStatement?_begin,
        fun reply db' hanswers => ?_⟩
    cases hanswers with
    | waits => exact ⟨.beginning phase own, .inl ⟨rfl, rfl⟩⟩
    | drops =>
      exact ⟨.gone release_phase RoleCommand.ofStatement?_begin,
        .inl ⟨rfl, rfl⟩⟩
    | refuses _ => exact ⟨.ended, .inl ⟨rfl, rfl⟩⟩
    | fails hbegun => cases phase.symm.trans hbegun
    | begins _ =>
      exact ⟨.locking ⟨Function.update_self _ _ _, own⟩, .inl ⟨rfl, rfl⟩⟩
  | locking within =>
    refine .inr
      ⟨_, _, _, rfl, RoleCommand.ofStatement?_lockOrganization, fun _ _ =>
      steps_of_statement (.locking within)
        RoleCommand.ofStatement?_lockOrganization
        nofun (fun failure => ⟨_, rfl⟩) fun reply db' hanswers => ?_⟩
    cases hanswers with
    | locks _ _ _ =>
      exact ⟨.reading ⟨within.phase, within.own⟩ fun _ =>
        Function.update_self _ _ _, rfl⟩
    | locksNothing _ row => exact ⟨.reading within fun h => absurd h row, rfl⟩
  | reading within locks =>
    refine .inr ⟨_, _, _, rfl, RoleCommand.ofStatement?_selectRole, fun _ _ =>
      steps_of_statement (.reading within locks)
        RoleCommand.ofStatement?_selectRole
        nofun (fun failure => ⟨_, rfl⟩) fun reply db' hanswers => ?_⟩
    cases hanswers with
    | reads _ rows => exact standing_found within locks rows
  | counting within locks finds =>
    refine .inr ⟨_, _, _, rfl, RoleCommand.ofStatement?_countOwners, fun _ _ =>
      steps_of_statement (.counting within locks finds)
        RoleCommand.ofStatement?_countOwners nofun (fun failure => ⟨_, rfl⟩)
        fun reply db' hanswers => ?_⟩
    cases hanswers with
    | counts _ rows => exact standing_counted within locks finds rows
  | updating within locks finds spares =>
    refine .inr ⟨_, _, _, rfl, RoleCommand.ofStatement?_updateRole, fun _ _ =>
      steps_of_statement (.updating within locks finds spares)
        RoleCommand.ofStatement?_updateRole nofun (fun failure => ⟨_, rfl⟩)
        fun reply db' hanswers => ?_⟩
    cases hanswers with
    | writes _ =>
      refine ⟨.committing ⟨within.phase, ?_⟩ locks finds spares, rfl⟩
      exact (Function.update_self _ _ _).trans (by rw [within.own]; rfl)
  | committing within locks finds spares =>
    refine .inr
      ⟨_, _, _, rfl, RoleCommand.ofStatement?_commit,
        fun reply db' hanswers => ?_⟩
    cases hanswers with
    | waits => exact ⟨.committing within locks finds spares, .inl ⟨rfl, rfl⟩⟩
    | drops =>
      exact ⟨.gone release_phase RoleCommand.ofStatement?_commit,
        .inl ⟨rfl, rfl⟩⟩
    | refuses _ => exact ⟨.ended, .inl ⟨rfl, rfl⟩⟩
    | fails _ => exact ⟨.ended, .inl ⟨rfl, rfl⟩⟩
    | commits _ =>
      refine ⟨.ended, .inr ⟨_, rfl, locks, finds, spares, ?_, rfl⟩⟩
      exact congrArg db.memberships.update within.own
    | commitsNothing hfailed => cases within.phase.symm.trans hfailed
  | rollingBack unchanged =>
    refine .inr
      ⟨_, _, _, rfl, RoleCommand.ofStatement?_rollback,
        fun reply db' hanswers => ?_⟩
    -- Even where the rollback fails, nothing has been committed.
    have hmemberships := hanswers.memberships nofun
    cases reply with
    | none => exact ⟨.rollingBack unchanged, .inl ⟨hmemberships, rfl⟩⟩
    | some reply => exact ⟨.ended, .inl ⟨hmemberships, unchanged⟩⟩
  | gone phase asks =>
    refine .inr ⟨_, _, _, rfl, asks, fun reply db' hanswers => ?_⟩
    obtain ⟨rfl, hgone, hmemberships⟩ := hanswers.of_gone phase
    exact ⟨.gone hgone asks, .inl ⟨hmemberships, rfl⟩⟩

end invariant

end RoleWrite

-- ======================================================= side by side

/-- Changes of role, asked of a database in which nothing else is under way. -/
structure RoleWrites (ι κ σ : Type) [DecidableEq ι] where
  write : ι → RoleWrite
  turns : Turns serverInterface ι κ σ
  state : σ → Database ι
  readCommitted : Database.ReadCommitted turns state
  start : σ
  atRest : (state start).AtRest

namespace RoleWrites

open RoleWrite Database

variable {ι κ σ : Type} [DecidableEq ι] {S : RoleWrites ι κ σ}
  {schedule before first : List κ}
  {turn : κ} {i : ι} {o : Uuid} {previous : OrgRole}

/-- The transactions and the database behind the turns of a schedule. -/
def behind (S : RoleWrites ι κ σ) (schedule : List κ) : (ι → RoleClient) × σ :=
  interleave S.turns (fun i => (S.write i).program, S.start) schedule

/-- The organizations that there are from the start. -/
def organizations (S : RoleWrites ι κ σ) : List Uuid :=
  (S.state S.start).organizations

/-- The memberships that others see after a schedule. -/
def committed (S : RoleWrites ι κ σ) (schedule : List κ) : StoredMemberships :=
  (S.state (S.behind schedule).2).memberships

/-- A transaction, and what it finds. -/
def client (S : RoleWrites ι κ σ) (i : ι) (schedule : List κ) :
    RoleClient × Database ι :=
  ((S.behind schedule).1 i, S.state (S.behind schedule).2)

/-- A schedule with one more turn is that turn made behind it. -/
theorem behind_snoc :
    S.behind (before ++ [turn]) = advance S.turns (S.behind before) turn :=
  interleave_snoc

/-- Each transaction has its standing. -/
structure Sound (S : RoleWrites ι κ σ) (st : (ι → RoleClient) × σ) : Prop where
  organizations : (S.state st.2).organizations = S.organizations
  standing : ∀ i, Standing (S.write i) i (S.state st.2) (st.1 i)

/-- What a turn is to the transaction whose it is, and to the others. -/
theorem turn_of_sound {st : (ι → RoleClient) × σ} (h : S.Sound st) (turn : κ) :
    (S.state (advance S.turns st turn).2).organizations = S.organizations
      ∧ Steps (S.write (S.turns.who turn)) (S.turns.who turn)
        (st.1 (S.turns.who turn), S.state st.2)
        ((advance S.turns st turn).1 (S.turns.who turn),
          S.state (advance S.turns st turn).2)
      ∧ ∀ i, S.turns.who turn ≠ i →
        Apart i (S.state st.2) (S.state (advance S.turns st turn).2) := by
  rcases (h.standing (S.turns.who turn)).steps with ⟨result, hdone⟩ |
    ⟨statement, next, command, hask, hcommand, hsteps⟩
  · rw [advance_of_done hdone]
    exact ⟨h.organizations, ⟨h.standing _, .inl ⟨rfl, rfl⟩⟩, fun _ _ => .refl⟩
  · have hanswers := S.readCommitted turn statement command st.2 hcommand
    have hself : (advance S.turns st turn).1 (S.turns.who turn)
        = (S.turns.answer turn statement st.2).1.elim (st.1 (S.turns.who turn))
          next := by
      rw [advance_of_ask hask, hask]
      exact Function.update_self _ _ _
    have hstate : (advance S.turns st turn).2
        = (S.turns.answer turn statement st.2).2 := by
      rw [advance_of_ask hask]
    rw [hself, hstate]
    exact ⟨hanswers.organizations.trans h.organizations, hsteps _ _ hanswers,
      fun i hne => hanswers.apart hne⟩

/-- Every turn keeps the invariant. -/
theorem Sound.advances {st : (ι → RoleClient) × σ} (h : S.Sound st)
    (turn : κ) : S.Sound (advance S.turns st turn) := by
  obtain ⟨horganizations, hsteps, hapart⟩ := turn_of_sound h turn
  refine ⟨horganizations, fun i => ?_⟩
  by_cases hi : S.turns.who turn = i
  · subst hi
    exact hsteps.standing
  · rw [advance_of_ne hi]
    exact (h.standing i).apart (hapart i hi) (hsteps.elsewhere hi)

/-- So it holds behind every schedule. -/
theorem sound_behind (S : RoleWrites ι κ σ) (schedule : List κ) :
    S.Sound (S.behind schedule) := by
  refine interleave_keeps S.Sound ⟨rfl, fun i => ?_⟩ fun st turn h =>
    h.advances turn
  show Standing (S.write i) i _ (S.write i).program
  rw [program_eq]
  exact .beginning (S.atRest i).1 (S.atRest i).2

/-- What a turn does. -/
theorem steps_behind (S : RoleWrites ι κ σ) (before : List κ) (turn : κ) :
    Steps (S.write (S.turns.who turn)) (S.turns.who turn)
      (S.client (S.turns.who turn) before)
      (S.client (S.turns.who turn) (before ++ [turn])) := by
  unfold client
  rw [behind_snoc]
  exact (turn_of_sound (S.sound_behind before) turn).2.1

/-- Who has returned an update has done so for good. -/
theorem updated_of_earlier (hearlier : first <+: schedule)
    (h : updated? (S.client i first).1 = some previous) :
    updated? (S.client i schedule).1 = some previous := by
  obtain ⟨later, rfl⟩ := hearlier
  have hdone :
      (S.behind (first ++ later)).1 i = .done (.ok (.updated previous)) := by
    unfold behind
    rw [interleave_append]
    exact interleave_of_done (updated?_eq_some h)
  unfold client
  rw [hdone]
  rfl

/-- An owner remains at every turn. -/
theorem ownerCount_snoc (ho : o ∈ S.organizations)
    (h : 0 < (S.committed before).ownerCount o) :
    0 < (S.committed (before ++ [turn])).ownerCount o := by
  have hmem : o ∈ (S.state (S.behind before).2).organizations :=
    (S.sound_behind before).organizations ▸ ho
  rcases (S.steps_behind before turn).commits with hpasses | ⟨previous,
    hcommits⟩
  · have hsame : S.committed (before ++ [turn]) = S.committed before :=
      hpasses.memberships
    rwa [hsame]
  · have hupdate : S.committed (before ++ [turn])
        = (S.committed before).update (S.write (S.turns.who turn)).update :=
          hcommits.memberships
    rw [hupdate]
    by_cases hthis : (S.write (S.turns.who turn)).organizationId = o
    · subst hthis
      refine StoredMemberships.ownerCount_update_single_pos h
        (hcommits.finds hmem) ?_
      exact fun howner hrole =>
        hcommits.spares hmem (OrgRole.name_injective howner) fun hgrants =>
          hrole (by rw [hgrants])
    · rwa [StoredMemberships.ownerCount_update_of_none
        (update_of_ne (Ne.symm hthis))]

/-- An organization with an owner has one behind every schedule. -/
theorem ownerCount_committed (ho : o ∈ S.organizations)
    (h : 0 < (S.committed []).ownerCount o)
    (schedule : List κ) : 0 < (S.committed schedule).ownerCount o := by
  induction schedule using List.reverseRecOn with
  | nil => exact h
  | append_singleton before turn ih => exact ownerCount_snoc ho ih

-- ========================================================== outcomes

/-- A transaction has ended, and this is what it has returned. -/
def Returned (S : RoleWrites ι κ σ) (schedule : List κ) (i : ι)
    (change : RoleChange) : Prop :=
  (S.behind schedule).1 i = .done (.ok change)

/-- No turn of a transaction changes a committed membership. -/
def ChangesNothing (S : RoleWrites ι κ σ) (schedule : List κ) (i : ι) : Prop :=
  ∀ before turn, before ++ [turn] <+: schedule → S.turns.who turn = i →
    S.committed (before ++ [turn]) = S.committed before

/-- One turn of a transaction gives the membership that it is about its new
role, in place of the previous one, and changes no other membership; and no
other turn of it changes anything. -/
def ChangesOnce (S : RoleWrites ι κ σ) (schedule : List κ) (i : ι)
    (previous : OrgRole) : Prop :=
  ∃ before turn, before ++ [turn] <+: schedule ∧ S.turns.who turn = i
    ∧ (S.committed before).role? (S.write i).organizationId (S.write i).userId
        = some previous.name
    ∧ S.committed (before ++ [turn])
      = (S.committed before).update (S.write i).update
    ∧ ∀ before' turn', before' ++ [turn'] <+: schedule →
      S.turns.who turn' = i →
        before' ≠ before →
          S.committed (before' ++ [turn']) = S.committed before'

/-- A client that does not return an update commits nothing. -/
theorem changesNothing_of_not_updated
    (h : updated? (S.client i schedule).1 = none) :
    S.ChangesNothing schedule i := by
  rintro before turn hturn rfl
  rcases (S.steps_behind before turn).commits with hpasses | ⟨previous,
    hcommits⟩
  · exact hpasses.memberships
  · cases h.symm.trans (updated_of_earlier hturn hcommits.result)

/-- A transaction returns an update from the turn on at which it commits. -/
theorem commits_of_updated
    (h : updated? (S.client i schedule).1 = some previous) :
    ∃ before turn, before ++ [turn] <+: schedule ∧ S.turns.who turn = i
      ∧ Commits (S.write i) i (S.client i before)
        (S.client i (before ++ [turn])) previous := by
  have hstart : updated? (S.write i).program ≠ some previous := by
    rw [program_eq]
    nofun
  obtain ⟨before, turn, later, rfl, hbefore, hafter⟩ := exists_turn
    (fun st : (ι → RoleClient) × σ => updated? (st.1 i) = some previous)
      hstart h
  replace hbefore : updated? (S.client i before).1 ≠ some previous := hbefore
  replace hafter :
    updated? (S.client i (before ++ [turn])).1 = some previous := hafter
  have hi : S.turns.who turn = i := by
    by_contra hne
    unfold client at hafter
    rw [behind_snoc, advance_of_ne hne] at hafter
    exact hbefore hafter
  subst hi
  refine ⟨before, turn, ⟨later, by simp⟩, rfl, ?_⟩
  rcases (S.steps_behind before turn).commits with hpasses | ⟨previous',
    hcommits⟩
  · exact absurd (hpasses.result.symm.trans hafter) hbefore
  · cases hcommits.result.symm.trans hafter
    exact hcommits

/-- A client that returns one commits its write, in one turn. -/
theorem changesOnce_of_updated
    (hmem : (S.write i).organizationId ∈ S.organizations)
    (h : updated? (S.client i schedule).1 = some previous) :
    S.ChangesOnce schedule i previous := by
  obtain ⟨before, turn, hturn, hi, hcommits⟩ := commits_of_updated h
  refine ⟨before, turn, hturn, hi,
    hcommits.finds ((S.sound_behind before).organizations ▸ hmem),
    hcommits.memberships, ?_⟩
  rintro before' turn' hturn' rfl hne
  rcases (S.steps_behind before' turn').commits with hpasses | ⟨previous',
    hcommits'⟩
  · exact hpasses.memberships
  -- Neither commits after the other, as each has yet to return when it
  -- commits.
  rcases List.prefix_or_prefix_of_prefix hturn' hturn with hle | hle
  · rcases List.prefix_concat_iff.1 hle with heq | hle
    · exact absurd (List.append_inj_left' heq rfl) hne
    · cases hcommits.unfinished.symm.trans
        (updated_of_earlier hle hcommits'.result)
  · rcases List.prefix_concat_iff.1 hle with heq | hle
    · exact absurd (List.append_inj_left' heq rfl).symm hne
    · cases hcommits'.unfinished.symm.trans
        (updated_of_earlier hle hcommits.result)

/-- However changes of role are interleaved, statement by statement, and
wherever they are cut: an organization that has an owner has one at every
moment; a transaction that finds no member, or the last owner, changes
nothing; and one that returns an update has made it, once, and has changed
nothing else. -/
theorem role_writes_keep_an_owner (S : RoleWrites ι κ σ) (schedule : List κ) :
    (∀ o ∈ S.organizations, 0 < (S.committed []).ownerCount o →
        0 < (S.committed schedule).ownerCount o)
      ∧ (∀ i,
        S.Returned schedule i .notMember ∨ S.Returned schedule i .lastOwner →
        S.ChangesNothing schedule i)
      ∧ ∀ i previous, (S.write i).organizationId ∈ S.organizations →
        S.Returned schedule i (.updated previous) →
          S.ChangesOnce schedule i previous := by
  refine ⟨fun o ho h => ownerCount_committed ho h schedule,
    fun i hreturned => ?_,
    fun i previous hmem hreturned =>
      changesOnce_of_updated hmem (congrArg updated? hreturned)⟩
  rcases hreturned with hreturned | hreturned <;>
    exact changesNothing_of_not_updated (congrArg updated? hreturned)

-- Two owners make each other an admin.

/-- An organization with two owners. -/
def twoOwners : StoredMemberships where
  rows := [⟨.ofNat 1, .ofNat 2, "owner"⟩, ⟨.ofNat 1, .ofNat 3, "owner"⟩]
  unique := by decide

/-- Each of two owners demotes the other. -/
def mutualDemotion : RoleWrites Bool Bool (Database Bool) where
  write
    | false => ⟨.ofNat 1, .ofNat 3, .admin⟩
    | true => ⟨.ofNat 1, .ofNat 2, .admin⟩
  turns := Database.turns
  state := id
  readCommitted := readCommitted_turns
  start := .ofTables [.ofNat 1] twoOwners
  atRest _ := ⟨rfl, rfl⟩

/-- Both begin, and the second waits at the lock until the first is done. -/
def mutualDemotionTurns : List Bool :=
  [false, true, false, true, false, false, true, false, false, true, true,
    true, true]

/-- What a program has returned, if it has. -/
def returned? : RoleClient → Option RoleChange
  | .done (.ok change) => some change
  | _ => none

theorem returned_of_returned? {change : RoleChange}
    (h : returned? ((S.behind schedule).1 i) = some change) :
    S.Returned schedule i change := by
  unfold returned? at h
  split at h
  · cases h
    assumption
  · cases h

/-- The first demotes the other owner; the second finds the last one. -/
theorem mutual_demotion_keeps_an_owner :
    0 < (mutualDemotion.committed mutualDemotionTurns).ownerCount (.ofNat 1)
      ∧ (mutualDemotion.Returned mutualDemotionTurns false (.updated .owner)
        ∧ mutualDemotion.ChangesOnce mutualDemotionTurns false .owner)
      ∧ mutualDemotion.Returned mutualDemotionTurns true .lastOwner
      ∧ mutualDemotion.ChangesNothing mutualDemotionTurns true := by
  obtain ⟨howners, hnothing, honce⟩ :=
    role_writes_keep_an_owner mutualDemotion mutualDemotionTurns
  have hreturned :
      returned? ((mutualDemotion.behind mutualDemotionTurns).1 false)
          = some (.updated .owner)
        ∧ returned? ((mutualDemotion.behind mutualDemotionTurns).1 true)
          = some .lastOwner := by
    decide +kernel
  have hfirst := returned_of_returned? hreturned.1
  have hsecond := returned_of_returned? hreturned.2
  exact ⟨howners _ (by decide) (by decide),
    ⟨hfirst, honce _ _ (by decide) hfirst⟩,
    hsecond, hnothing _ (.inr hsecond)⟩

end RoleWrites

end Tenancy
