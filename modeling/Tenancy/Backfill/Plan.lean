/-
Plans: which tables get an organization, and where each takes it from.
A plan lists every table once, behind the table it derives from. Making
one checks the names, puts parents before children — the earliest listed
table whose parent is already placed comes next — and refuses what has
no such order.

A plan is known by its fingerprint, the digest of its tables and
derivations in their order, so that a changed plan shares no recorded
step with the old one.
-/
import Tenancy.Backfill.Error
import Tenancy.Crypto.Sha256
import Tenancy.Json.Basic
import Tenancy.Sql.Identifier
import Tenancy.Text.Hex
import Tenancy.Text.Utf8

namespace Tenancy.Backfill

/-- Where the rows of a table get their organization from. -/
inductive Derivation where
  /-- The earliest membership of the user in a column. -/
  | ownerMembership (ownerColumn : String)
  /-- The row of another table that a column refers to. -/
  | parent (parentTable foreignKey : String)
  /-- Nowhere: every row gets the default organization. -/
  | defaultOnly
deriving DecidableEq

/-- How a derivation is described, also inside the fingerprint. -/
def Derivation.text : Derivation → String
  | .ownerMembership column => "owner membership via " ++ column
  | .parent table key => "parent " ++ table ++ " via " ++ key
  | .defaultOnly => "default organization only"

/-- A table of a plan. -/
structure Entry where
  table : String
  derivation : Derivation
deriving DecidableEq

namespace Entry

/-- The table that an entry derives from. -/
def parent? (entry : Entry) : Option String :=
  match entry.derivation with
  | .parent table _ => some table
  | _ => none

/-- The names in an entry, its own table first. -/
def names (entry : Entry) : List String :=
  entry.table :: match entry.derivation with
    | .ownerMembership column => [column]
    | .parent table key => [table, key]
    | .defaultOnly => []

end Entry

/-- Tables in an order in which parents precede their children. -/
structure Plan where
  tables : List Entry
deriving DecidableEq

namespace Plan

def refuse {α : Type} (reason : String) : Except BackfillError α :=
  .error (.invalidPlan reason)

-- ============================================================ checks

/-- Every name must be valid, and no table may be listed twice. -/
def checkNames (seen : List String) : List Entry → Except BackfillError Unit
  | [] => .ok ()
  | entry :: rest =>
    match entry.names.find? fun n => !Sql.Identifier.isValid n with
    | some bad => refuse ("invalid identifier '" ++ bad ++ "'")
    | none =>
      if entry.table ∈ seen then
        refuse ("table '" ++ entry.table ++ "' listed twice")
      else checkNames (entry.table :: seen) rest

/-- Every parent must be a listed table. -/
def checkParents (listed : List String) :
    List Entry → Except BackfillError Unit
  | [] => .ok ()
  | entry :: rest =>
    match entry.parent? with
    | some parent =>
      if parent ∈ listed then checkParents listed rest
      else refuse
        ("table '" ++ entry.table ++ "' derives from unknown parent '"
          ++ parent ++ "'")
    | none => checkParents listed rest

-- ============================================================= order

/-- May a table come next, behind those placed? -/
def isReady (placed : List String) (entry : Entry) : Bool :=
  match entry.parent? with
  | some parent => parent ∈ placed
  | none => true

/-- The earliest listed entry that may come next, and the others. -/
def takeReady (placed : List String) : List Entry → Option (Entry × List Entry)
  | [] => none
  | entry :: rest =>
    if isReady placed entry then some (entry, rest)
    else match takeReady placed rest with
      | some (found, others) => some (found, entry :: others)
      | none => none

/-- Place entry after entry, in at most so many steps; the entries that
can never be placed, if there are any. -/
def arrangeFor :
    (steps : Nat) → (placed : List String) → List Entry →
      Except (List Entry) (List Entry)
  | _, _, [] => .ok []
  | 0, _, pending => .error pending
  | steps + 1, placed, pending =>
    match takeReady placed pending with
    | none => .error pending
    | some (entry, others) => do
      let rest ← arrangeFor steps (entry.table :: placed) others
      return entry :: rest

/-- The entries with parents before children, or those without such an
order. -/
def arrange (entries : List Entry) : Except (List Entry) (List Entry) :=
  arrangeFor entries.length [] entries

def ofEntries (entries : List Entry) : Except BackfillError Plan := do
  checkNames [] entries
  checkParents (entries.map Entry.table) entries
  match arrange entries with
  | .ok tables => return ⟨tables⟩
  | .error stuck =>
    refuse
      ("dependency cycle among: " ++ ", ".intercalate (stuck.map Entry.table))

/-- The tables of the application. -/
def standardEntries : List Entry := [
  ⟨"projects", .ownerMembership "user_id"⟩,
  ⟨"project_members", .parent "projects" "project_id"⟩,
  ⟨"tasks", .parent "projects" "project_id"⟩,
  ⟨"task_assignees", .parent "tasks" "task_id"⟩,
  ⟨"documents", .parent "projects" "project_id"⟩,
  ⟨"document_shares", .parent "documents" "document_id"⟩,
  ⟨"comments", .parent "tasks" "task_id"⟩,
  ⟨"notifications", .ownerMembership "user_id"⟩]

def standard : Except BackfillError Plan := ofEntries standardEntries

-- ======================================================= fingerprint

/-- The text that is digested: a line for each table. -/
def identity (plan : Plan) : String :=
  String.join (plan.tables.map fun entry =>
    entry.table ++ "|" ++ entry.derivation.text ++ "\n")

def fingerprint (plan : Plan) : String :=
  Text.hexOfBytes (Crypto.Sha256.digest (Text.utf8 plan.identity))

end Plan

-- =========================================================== written

def Derivation.toJson : Derivation → Json
  | .ownerMembership column =>
    Json.object
      [("kind", .str "owner_membership"), ("owner_column", .str column)]
  | .parent table key =>
    Json.object
      [("kind", .str "parent"), ("parent_table", .str table),
        ("foreign_key", .str key)]
  | .defaultOnly => Json.object [("kind", .str "default_only")]

def Entry.toJson (entry : Entry) : Json :=
  Json.object
    [("table", .str entry.table), ("derivation", entry.derivation.toJson)]

/-- The key under which a step is recorded, for one table or for the run. -/
def stepKey (step : String) : (table : Option String) → String
  | some table => step ++ ":" ++ table
  | none => step

end Tenancy.Backfill
