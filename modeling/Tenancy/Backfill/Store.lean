/-
What a backfill asks of a store: facts about tables, changes of their
organization column and its rows, and the record of completed steps.
A change is meant to do nothing more when it is asked for again; whether
it does is for each store to say.
-/
import Tenancy.Backfill.Error
import Tenancy.Program
import Tenancy.Uuid

namespace Tenancy.Backfill

/-- A call of a store. Tables, columns and organizations are named. -/
inductive StoreCall where
  | tableExists (table : String)
  | columnExists (table : String)
  | addNullableColumn (table : String)
  | findOrganization (slug : String)
  /-- Copy the parent row's organization into rows without one; count them. -/
  | deriveFromParent (table parentTable foreignKey : String)
  /-- Give rows without an organization that of their owner's earliest
  membership; count them. -/
  | deriveFromOwner (table ownerColumn : String)
  /-- Give every row without an organization this one; count them. -/
  | applyDefault (table : String) (organization : Uuid)
  | countMissing (table : String)
  | columnIsNullable (table : String)
  | setNotNull (table : String)
  | foreignKeyExists (table : String)
  | addForeignKey (table : String)
  | ensureCheckpoints
  | completedSteps (fingerprint : String)
  | recordStep (fingerprint key : String)
deriving DecidableEq

namespace StoreCall

/-- What a call gives when it does not fail. -/
def Result : StoreCall → Type
  | .tableExists _ | .columnExists _ | .columnIsNullable _
  | .foreignKeyExists _ => Bool
  | .addNullableColumn _ | .setNotNull _ | .addForeignKey _
  | .ensureCheckpoints | .recordStep _ _ => Unit
  | .findOrganization _ => Option Uuid
  | .deriveFromParent _ _ _ | .deriveFromOwner _ _ | .applyDefault _ _
  | .countMissing _ => Nat
  | .completedSteps _ => List String

abbrev Answer (call : StoreCall) : Type := Except BackfillError call.Result

def method : StoreCall → String
  | .tableExists _ => "table_exists"
  | .columnExists _ => "column_exists"
  | .addNullableColumn _ => "add_nullable_column"
  | .findOrganization _ => "find_organization_by_slug"
  | .deriveFromParent _ _ _ => "derive_from_parent"
  | .deriveFromOwner _ _ => "derive_from_owner_membership"
  | .applyDefault _ _ => "apply_default"
  | .countMissing _ => "count_missing"
  | .columnIsNullable _ => "column_is_nullable"
  | .setNotNull _ => "set_not_null"
  | .foreignKeyExists _ => "foreign_key_exists"
  | .addForeignKey _ => "add_foreign_key"
  | .ensureCheckpoints => "ensure_checkpoint_table"
  | .completedSteps _ => "completed_steps"
  | .recordStep _ _ => "record_step"

/-- What a call is about: its table, slug, fingerprint or key. -/
def subject : StoreCall → String
  | .tableExists s | .columnExists s | .addNullableColumn s
  | .findOrganization s | .deriveFromParent s _ _ | .deriveFromOwner s _
  | .applyDefault s _ | .countMissing s | .columnIsNullable s
  | .setNotNull s | .foreignKeyExists s | .addForeignKey s
  | .completedSteps s | .recordStep _ s => s
  | .ensureCheckpoints => ""

end StoreCall

def storeInterface : Interface := ⟨StoreCall, StoreCall.Answer⟩

/-- A computation over a store that stops at the first failure. -/
abbrev StoreProgram := ExceptT BackfillError (Program storeInterface)

def ask (call : StoreCall) : StoreProgram call.Result :=
  ExceptT.mk (Program.call (I := storeInterface) call)

end Tenancy.Backfill
