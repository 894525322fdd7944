/-
The tables whose rows belong to tenants: for each, the columns that say
whose a row is, and the table of grants that opens single rows to people
who do not own them, where there is one.
-/
import Tenancy.Sql.Condition

namespace Tenancy

/-- A table of rows that belong to tenants. -/
structure Entity where
  name : String
  table : String
  idColumn : String
  organizationColumn : String
  ownerColumn : String
  /-- The grants of single rows, if the table has any. -/
  peers : Option Sql.GrantTable
deriving DecidableEq

namespace Entity

def project : Entity where
  name := "project"
  table := "projects"
  idColumn := "id"
  organizationColumn := "organization_id"
  ownerColumn := "user_id"
  peers := some ⟨"project_members", "project_id", "user_id", "organization_id"⟩

def task : Entity where
  name := "task"
  table := "tasks"
  idColumn := "id"
  organizationColumn := "organization_id"
  ownerColumn := "created_by"
  peers := some ⟨"task_assignees", "task_id", "user_id", "organization_id"⟩

def document : Entity where
  name := "document"
  table := "documents"
  idColumn := "id"
  organizationColumn := "organization_id"
  ownerColumn := "uploaded_by"
  peers :=
    some ⟨"document_shares", "document_id", "user_id", "organization_id"⟩

def comment : Entity where
  name := "comment"
  table := "comments"
  idColumn := "id"
  organizationColumn := "organization_id"
  ownerColumn := "user_id"
  peers := none

/-- Every such table of the application. -/
def all : List Entity := [project, task, document, comment]

/-- The entity of a name, which may be that of one row or of the table. -/
def lookup? (name : String) : Option Entity :=
  all.find? fun e => e.name == name || e.table == name

def idOf (e : Entity) : Sql.Column := ⟨e.table, e.idColumn⟩

def organizationOf (e : Entity) : Sql.Column := ⟨e.table, e.organizationColumn⟩

def ownerOf (e : Entity) : Sql.Column := ⟨e.table, e.ownerColumn⟩

end Entity

end Tenancy
