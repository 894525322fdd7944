/-
Carrying out commands. A command writes its whole output at its end, as
text or as one JSON value, so one that fails or panics has written
nothing.
-/
import Tenancy.Backfill.Database
import Tenancy.Backfill.Run
import Tenancy.Cli.Arguments
import Tenancy.Cli.Table
import Tenancy.Config
import Tenancy.Database.Url
import Tenancy.Panic
import Tenancy.Policy.Registry
import Tenancy.Token.Service

namespace Tenancy.Cli

/-- Why a command failed. -/
inductive CliError where
  | noDefaultOrganization
  | connection (e : DatabaseError)
  | backfill (e : BackfillError)
  | token (e : TokenError)
deriving DecidableEq

def CliError.message : CliError → String
  | .noDefaultOrganization =>
    "No default organization: pass --default-org or set "
      ++ "MIGRATION_DEFAULT_ORGANIZATION"
  | .connection _ => "Failed to connect to the database"
  | .backfill e => e.message
  | .token e => e.message

/-- How a command ends that has no output. -/
inductive CliEnd where
  | failed (e : CliError)
  | panicked
deriving DecidableEq

/-- What commands ask for: a connection, and then statements over it. -/
inductive CliCall where
  | connect (url : String)
  | database (statement : Sql.Statement)

def CliCall.Answer : CliCall → Type
  | .connect _ => Except DatabaseError Unit
  | .database _ => Except Sql.Failure Sql.Reply

def cliInterface : Interface := ⟨CliCall, CliCall.Answer⟩

/-- A computation of a command, which may have no output. -/
abbrev CliProgram := ExceptT CliEnd (Program cliInterface)

/-- A server as commands see it: whether it can be connected to, and how it
answers statements. -/
def world {σ : Type} (connection : Except DatabaseError Unit)
    (server : Program.World Sql.serverInterface σ) :
    Program.World cliInterface σ
  | .connect _, s => (connection, s)
  | .database statement, s => server statement s

-- ============================================================ output

/-- Lines, each with its end. -/
def lines (texts : List String) : String := String.join (texts.map (· ++ "\n"))

/-- A success: its message, with more members where the output is JSON. -/
def success (json : Bool) (message : String) (members : Json.Members) :
    String :=
  if json then
    let envelope :=
      Json.Members.ofList [("success", .bool true), ("message", .str message)]
    lines
      [Json.pretty
        (.obj
          (members.foldl (fun o m => Json.Members.insert m.1 m.2 o) envelope))]
  else lines ["✓ " ++ message]

/-- The tables of a plan, in the order in which they are filled. -/
def showPlan (json : Bool) (plan : Backfill.Plan) : String :=
  if json then
    lines [Json.pretty (Json.object [
      ("fingerprint", .str plan.fingerprint),
      ("tables", .arr (plan.tables.map Backfill.Entry.toJson))])]
  else
    let rows := plan.tables.zipIdx.map fun (entry, i) =>
      [toString (i + 1), entry.table, entry.derivation.text]
    lines (table [("#", 3), ("TABLE", 20), ("DERIVATION", 40)] rows
      ++ ["", "fingerprint: " ++ plan.fingerprint])

/-- What a run has done. -/
def showReport (json : Bool) (report : Backfill.Report) : String :=
  let message :=
    if report.changedAnything then "Tenant backfill complete"
    else "Tenant backfill complete, nothing to change"
  if json then success true message (report.toJson.obj?.getD [])
  else
    let mark (b : Bool) := if b then "yes" else "-"
    let rows :=
      report.tables.map fun r =>
        [r.table, toString r.derived, toString r.defaulted,
          mark r.madeNotNull, mark r.foreignKeyAdded,
          toString r.skippedSteps.length]
    lines
      (table
        [("TABLE", 20), ("DERIVED", 8), ("DEFAULTED", 10), ("NOT NULL", 9),
          ("FK", 4), ("SKIPPED", 7)]
        rows ++ ["",
          "default organization: " ++ report.defaultOrganization.toString])
      ++ success false message []

/-- The preconditions of all operations. -/
def showPolicies (json : Bool) (registry : Registry) : String :=
  if json then
    let policies := registry.entries.map fun (operation, requirement) =>
      Json.obj
        (Json.Members.insert "operation" (.str operation)
          (requirement.toJson.obj?.getD []))
    lines [Json.pretty (Json.object [("policies", .arr policies)])]
  else
    let rows := registry.entries.map fun (operation, requirement) => [
      operation,
      requirement.scope.title,
      orDash
        (requirement.roles.map fun roles =>
          ",".intercalate (roles.map OrgRole.name)),
      orDash (requirement.minTier.map Tier.name)]
    lines
      (table
        [("OPERATION", 36), ("SCOPE", 13), ("ROLES", 20), ("MIN TIER", 12)]
        rows)

-- ========================================================== commands

/-- A result, or the failure that its error is for a command. -/
def orFail {ε α : Type} (toError : ε → CliError) : Except ε α → CliProgram α
  | .ok a => pure a
  | .error e => throw (.failed (toError e))

/-- What is returned; a panic is the end of the command. -/
def orPanic {α : Type} : MayPanic α → CliProgram α
  | .returns a => pure a
  | .panics => throw .panicked

def connect (url : Option String) : CliProgram Unit := do
  let url ← orFail .connection (DatabaseUrl.check url)
  orFail .connection
    (← ExceptT.lift (Program.call (I := cliInterface) (.connect url)))

def runJob (job : Backfill.Job) : CliProgram Backfill.Report := do
  let overDatabase :=
    Program.lower Backfill.DatabaseStore.answer (ExceptT.run job.run)
  let program : Program cliInterface (Except BackfillError Backfill.Report) :=
    Program.lower
      (fun statement => Program.call (I := cliInterface) (.database statement))
      overDatabase
  orFail .backfill (← ExceptT.lift program)

def run (config : Config) (databaseUrl : Option String) (now : Int)
    (json : Bool) (command : Command) : CliProgram String := do
  let tokens : TokenService :=
    ⟨config.security.jwtSecret, config.security.jwtExpiryHours⟩
  match command with
  | .backfillPlan =>
    return showPlan json (← orFail .backfill Backfill.Plan.standard)
  | .backfillRun defaultSlug ignoreCheckpoints =>
    let plan ← orFail .backfill Backfill.Plan.standard
    match defaultSlug.or config.backfill.defaultOrganizationSlug with
    | none => throw (.failed .noDefaultOrganization)
    | some slug =>
      connect databaseUrl
      let report ←
        runJob
          ⟨plan, slug, config.backfill.useCheckpoints && !ignoreCheckpoints⟩
      return showReport json report
  | .backfillDown =>
    return success json Backfill.downMessage [("changed", .bool false)]
  | .policyList => return showPolicies json .standard
  | .tokenIssue user =>
    let token ← orFail .token (← orPanic (tokens.issue now user))
    if json then
      return success true "Token issued" [
        ("token", .str token), ("token_type", .str "Bearer"),
        ("expires_in", .int tokens.expiresIn)]
    else return lines [token]
  | .tokenVerify token =>
    let claims ← orFail .token (tokens.verify now token)
    return success json ("Token valid for user " ++ claims.subject.toString) [
      ("sub", .uuid claims.subject), ("iat", .int claims.issuedAt),
      ("exp", .int claims.expires)]

end Tenancy.Cli
