/-
A store in memory: tables of rows, organizations by slug, memberships in
the order in which they were made, and the recorded steps. A table can
refuse updates, which then change no row, as under a trigger that drops
them.
-/
import Tenancy.Backfill.Store

namespace Tenancy.Backfill

/-- A row: its organization, if it has one, and the rows it refers to, by
column. -/
structure MemoryRow where
  id : Uuid
  organization : Option Uuid
  refs : List (String × Uuid)
deriving DecidableEq

/-- The row or user that a column refers to. -/
def MemoryRow.ref? (row : MemoryRow) (column : String) : Option Uuid :=
  (row.refs.find? fun r => r.1 == column).map Prod.snd

/-- A table, and what is known of its organization column. -/
structure MemoryTable where
  hasColumn : Bool
  nullable : Bool
  foreignKey : Bool
  rejectsUpdates : Bool
  rows : List MemoryRow
deriving DecidableEq

/-- A table of rows, without the column. -/
def MemoryTable.ofRows (rows : List MemoryRow) : MemoryTable :=
  ⟨false, false, false, false, rows⟩

structure MemoryStore where
  tables : List (String × MemoryTable)
  organizations : List (String × Uuid)
  /-- Users with their organizations, the earliest membership first. -/
  memberships : List (Uuid × Uuid)
  /-- Recorded keys, with the fingerprints they are recorded under. -/
  checkpoints : List (String × String)
  hasCheckpoints : Bool
deriving DecidableEq

namespace MemoryStore

def empty : MemoryStore := ⟨[], [], [], [], false⟩

-- ============================================================ access

def table? (store : MemoryStore) (name : String) : Option MemoryTable :=
  (store.tables.find? fun t => t.1 == name).map Prod.snd

/-- Set a table: replaced where it stands, else added. -/
def setEntry (name : String) (table : MemoryTable) :
    List (String × MemoryTable) → List (String × MemoryTable)
  | [] => [(name, table)]
  | (n, t) :: rest =>
    if n = name then (name, table) :: rest
    else (n, t) :: setEntry name table rest

def setTable (store : MemoryStore) (name : String) (table : MemoryTable) :
    MemoryStore :=
  { store with tables := setEntry name table store.tables }

def organization? (store : MemoryStore) (slug : String) : Option Uuid :=
  (store.organizations.find? fun o => o.1 == slug).map Prod.snd

/-- Make an organization; of two of one slug the later counts. -/
def addOrganization (store : MemoryStore) (slug : String) (id : Uuid) :
    MemoryStore :=
  { store with organizations := (slug, id) :: store.organizations }

def addMembership (store : MemoryStore) (user organization : Uuid) :
    MemoryStore :=
  { store with memberships := store.memberships ++ [(user, organization)] }

/-- Let a table take updates, or refuse them. -/
def setRejectsUpdates (store : MemoryStore) (name : String) (rejects : Bool) :
    MemoryStore :=
  match store.table? name with
  | some t => store.setTable name { t with rejectsUpdates := rejects }
  | none => store

/-- The organization of the earliest membership of a user. -/
def firstMembership? (store : MemoryStore) (user : Uuid) : Option Uuid :=
  (store.memberships.find? fun m => m.1 == user).map Prod.snd

/-- The organization of the row of an identifier, of several the last. -/
def organizationOf? (rows : List MemoryRow) (id : Uuid) : Option Uuid :=
  (rows.reverse.find? fun r => r.id == id).bind MemoryRow.organization

-- ============================================================ filling

/-- Give a row an organization, unless it has one or none is known. -/
def fillRow (choose : MemoryRow → Option Uuid) (row : MemoryRow) : MemoryRow :=
  match row.organization with
  | some _ => row
  | none => { row with organization := choose row }

/-- Would filling change the row? -/
def isFilled (choose : MemoryRow → Option Uuid) (row : MemoryRow) : Bool :=
  row.organization.isNone && (choose row).isSome

/-- Fill the rows of a table that takes updates; count them. -/
def fillTable (choose : MemoryRow → Option Uuid) (table : MemoryTable) :
    Nat × MemoryTable :=
  if table.rejectsUpdates then (0, table)
  else ((table.rows.filter (isFilled choose)).length,
    { table with rows := table.rows.map (fillRow choose) })

/-- How many rows of a table have no organization. -/
def missing (table : MemoryTable) : Nat :=
  (table.rows.filter fun r => r.organization.isNone).length

-- ============================================================= calls

/-- A change of a table that must exist. -/
def onTable {α : Type} (store : MemoryStore) (name : String)
    (change : MemoryTable → Except BackfillError (α × MemoryTable)) :
    Except BackfillError α × MemoryStore :=
  match store.table? name with
  | none => (.error (.tableMissing name), store)
  | some t =>
    match change t with
    | .ok (a, t) => (.ok a, store.setTable name t)
    | .error e => (.error e, store)

/-- A fact about a table; false of one that does not exist. -/
def holds (store : MemoryStore) (name : String) (fact : MemoryTable → Bool) :
    Bool :=
  match store.table? name with
  | some t => fact t
  | none => false

/-- The recorded keys of a fingerprint, in order. -/
def recorded (store : MemoryStore) (fingerprint : String) : List String :=
  ((store.checkpoints.filter fun c => c.1 == fingerprint).map
    Prod.snd).mergeSort (· ≤ ·)

/-- Record a key, once. -/
def record (store : MemoryStore) (fingerprint key : String) : MemoryStore :=
  if (fingerprint, key) ∈ store.checkpoints then store
  else { store with checkpoints := store.checkpoints ++ [(fingerprint, key)] }

def answer : Program.World storeInterface MemoryStore
  | .tableExists table, store => (.ok (store.table? table).isSome, store)
  | .columnExists table, store =>
    (.ok (store.holds table MemoryTable.hasColumn), store)
  | .addNullableColumn table, store => store.onTable table fun t =>
      .ok ((), if t.hasColumn then t
        else { t with hasColumn := true, nullable := true })
  | .findOrganization slug, store => (.ok (store.organization? slug), store)
  | .deriveFromParent table parentTable foreignKey, store =>
      match store.table? parentTable with
      | none => (.error (.tableMissing parentTable), store)
      | some parent => store.onTable table fun t =>
          .ok (fillTable
            (fun row =>
              (row.ref? foreignKey).bind (organizationOf? parent.rows)) t)
  | .deriveFromOwner table ownerColumn, store => store.onTable table fun t =>
      .ok (fillTable
        (fun row => (row.ref? ownerColumn).bind store.firstMembership?) t)
  | .applyDefault table organization, store => store.onTable table fun t =>
      .ok (fillTable (fun _ => some organization) t)
  | .countMissing table, store =>
    store.onTable table fun t => .ok (missing t, t)
  | .columnIsNullable table, store =>
    (.ok (store.holds table MemoryTable.nullable), store)
  | .setNotNull table, store => store.onTable table fun t =>
      if missing t > 0 then
        .error (.invariantViolation table "column contains null values")
      else .ok ((), { t with nullable := false })
  | .foreignKeyExists table, store =>
    (.ok (store.holds table MemoryTable.foreignKey), store)
  | .addForeignKey table, store => store.onTable table fun t =>
      .ok ((), { t with foreignKey := true })
  | .ensureCheckpoints, store =>
    (.ok (), { store with hasCheckpoints := true })
  | .completedSteps fingerprint, store =>
    (.ok (store.recorded fingerprint), store)
  | .recordStep fingerprint key, store =>
    (.ok (), store.record fingerprint key)

end MemoryStore

end Tenancy.Backfill
