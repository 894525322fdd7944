/-
The command line. Reading the environment and the clock, and writing, are
all that happens here; which command it is and what it writes are decided
by `Cli.parse` and `Cli.run`.

No database is within reach of this program, so connecting to one fails
as it does when every connection is taken.
-/
import Std.Time.DateTime.Timestamp
import Tenancy.Cli.Run

namespace Tenancy.Cli

/-- The variables that count, as they are set. -/
def environment : IO Environment := do
  let set ← Config.variableNames.filterMapM fun name => do
    return (← IO.getEnv name).map fun value => (name, value)
  return Environment.ofList set

def secondsNow : IO Int := do
  return (← Std.Time.Timestamp.now).toSecondsSinceUnixEpoch.val

/-- A server that no statement reaches. -/
def unreachable : Program.World cliInterface Unit :=
  world (.error (.sql .poolTimedOut)) fun _ s => (.error .poolClosed, s)

/-- Carry out a command: the result and then its exit code. -/
def perform (command : Command) (json : Bool) : IO UInt32 := do
  let config := Config.ofEnvironment (← environment)
  let program :=
    run config (← IO.getEnv "DATABASE_URL") (← secondsNow) json command
  match (Program.run unreachable (ExceptT.run program) ()).1 with
  | .ok output =>
    IO.print output
    return 0
  | .error (.failed e) =>
    IO.eprintln ("Error: " ++ e.message)
    return 1
  | .error .panicked => return 101

end Tenancy.Cli

def main (args : List String) : IO UInt32 :=
  match Tenancy.Cli.parse args with
  | .ok (command, json) => Tenancy.Cli.perform command json
  | .error e => do
    IO.eprintln e.name
    return e.exitCode.toUInt32
