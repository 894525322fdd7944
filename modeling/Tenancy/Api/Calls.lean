/-
What handlers ask for: calls of the directory, and statements for the
projects in the database. A handler ends with a response's data, or
without: it refuses the request, or panics.
-/
import Tenancy.Api.Reply
import Tenancy.Directory.Database

namespace Tenancy

/-- A call of the directory or a statement for the database. -/
inductive ApiCall where
  | directory (call : DirectoryCall)
  | database (statement : Sql.Statement)

def ApiCall.Answer : ApiCall → Type
  | .directory call => call.Answer
  | .database _ => Except Sql.Failure Sql.Reply

def apiInterface : Interface := ⟨ApiCall, ApiCall.Answer⟩

/-- A computation that asks for both. -/
abbrev ApiProgram := Program apiInterface

/-- A computation of a handler, which may have no result. -/
abbrev Handler := ExceptT Refusal ApiProgram

namespace ApiProgram

def ofDirectory {α : Type} : Program directoryInterface α → ApiProgram α :=
  Program.lower fun call => Program.call (I := apiInterface) (.directory call)

def ofDatabase {α : Type} : Program Sql.serverInterface α → ApiProgram α :=
  Program.lower fun statement =>
    Program.call (I := apiInterface) (.database statement)

/-- The directory in the database, too: a computation over the database
alone. -/
def toDatabase {α : Type} : ApiProgram α → Program Sql.serverInterface α :=
  Program.lower fun
    | .directory call => DatabaseDirectory.answer call
    | .database statement => Program.call (I := Sql.serverInterface) statement

/-- A directory and a database side by side. -/
def world {σ τ : Type} (directory : Program.World directoryInterface σ)
    (server : Program.World Sql.serverInterface τ) :
    Program.World apiInterface (σ × τ)
  | .directory call, (s, t) =>
    let (answer, s) := directory call s
    (answer, (s, t))
  | .database statement, (s, t) =>
    let (answer, t) := server statement t
    (answer, (s, t))

end ApiProgram

namespace Handler

def fail {α : Type} (e : ApiError) : Handler α := throw (.failed e)

/-- A result, or the error that its failure is for clients. -/
def orFail {ε α : Type} (toError : ε → ApiError) : Except ε α → Handler α
  | .ok a => pure a
  | .error e => fail (toError e)

/-- What is returned; a panic is the end of the handler. -/
def orPanic {α : Type} : MayPanic α → Handler α
  | .returns a => pure a
  | .panics => throw .panicked

/-- A value that must be there. -/
def require {α : Type} (e : ApiError) : Option α → Handler α
  | some a => pure a
  | none => fail e

def ask (call : DirectoryCall) : Handler call.Result :=
  ExceptT.mk ((Program.call (I := apiInterface) (.directory call)).bind fun
    | .ok a => .done (.ok a)
    | .error e => .done (.error (.failed (.ofDatabase e))))

def query {α : Type} (program : Sql.SqlProgram DatabaseError α) : Handler α :=
  ExceptT.mk ((ApiProgram.ofDatabase (ExceptT.run program)).bind fun
    | .ok a => .done (.ok a)
    | .error e => .done (.error (.failed (.ofDatabase e))))

end Handler

end Tenancy
