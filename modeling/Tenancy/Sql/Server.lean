/-
Programs that run statements. Each statement goes to a server, which
answers it with rows and a count or with a failure; what follows stops
at the first failure. Between BEGIN and COMMIT the statements form a
transaction, and one that does not get to its COMMIT is rolled back.
-/
import Tenancy.Program
import Tenancy.Sql.Statement

namespace Tenancy.Sql

def serverInterface : Interface := ⟨Statement, fun _ => Except Failure Reply⟩

/-- A computation that runs statements and stops at the first failure of
one kind or another. -/
abbrev SqlProgram (ε : Type) := ExceptT ε (Program serverInterface)

namespace SqlProgram

variable {ε α : Type}

def run (fail : Failure → ε) (statement : Statement) : SqlProgram ε Reply :=
  ExceptT.mk
    ((Program.call (I := serverInterface) statement).bind fun answer =>
    .done (answer.mapError fail))

/-- A result of looking at an answer. -/
def check (fail : Failure → ε) (result : Except Failure α) : SqlProgram ε α :=
  ExceptT.mk (.done (result.mapError fail))

/-- Look at the first row of an answer, if there is one. -/
def firstRow (reply : Reply) (read : Row → SqlProgram ε α) :
    SqlProgram ε (Option α) :=
  match reply.rows with
  | [] => pure none
  | row :: _ => do return some (← read row)

def begin_ : Statement := ⟨"BEGIN", []⟩

def commit : Statement := ⟨"COMMIT", []⟩

def rollback : Statement := ⟨"ROLLBACK", []⟩

/-- A transaction: rolled back where the body fails or gives no result to
commit. -/
def transaction (fail : Failure → ε) (body : SqlProgram ε (α × Bool)) :
    SqlProgram ε α := do
  let _ ← run fail begin_
  let undone (result : Except ε α) : Program serverInterface (Except ε α) :=
    (Program.call (I := serverInterface) rollback).bind fun _ => .done result
  ExceptT.mk ((ExceptT.run body).bind fun
    | .error e => undone (.error e)
    | .ok (a, false) => undone (.ok a)
    | .ok (a, true) => (Program.call (I := serverInterface) commit).bind fun
      | .ok _ => .done (.ok a)
      | .error e => .done (.error (fail e)))

end SqlProgram

end Tenancy.Sql
