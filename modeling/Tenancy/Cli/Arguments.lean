/-
The arguments of the command line. Commands form a tree: a level has
subcommands, or it is a command of its own with options and perhaps one
free argument. Arguments are read from the left; options belong to the
level they are written at, except that asking for JSON counts at every
level and asking for help ends the reading at any.

The value of an option is looked at when the next option, or the end,
is reached; so of two mistakes the one reported is not always the one
written first.
-/
import Tenancy.Text.Split
import Tenancy.Uuid

namespace Tenancy.Cli

/-- Why arguments are no command, or none to carry out. -/
inductive UsageError where
  | displayHelp
  | displayVersion
  | displayHelpOnMissing
  | missingSubcommand
  | invalidSubcommand
  | unknownArgument
  | invalidValue
  | valueValidation
  | missingRequiredArgument
  | argumentConflict
  | tooManyValues
deriving DecidableEq

namespace UsageError

def name : UsageError → String
  | .displayHelp => "DisplayHelp"
  | .displayVersion => "DisplayVersion"
  | .displayHelpOnMissing => "DisplayHelpOnMissingArgumentOrSubcommand"
  | .missingSubcommand => "MissingSubcommand"
  | .invalidSubcommand => "InvalidSubcommand"
  | .unknownArgument => "UnknownArgument"
  | .invalidValue => "InvalidValue"
  | .valueValidation => "ValueValidation"
  | .missingRequiredArgument => "MissingRequiredArgument"
  | .argumentConflict => "ArgumentConflict"
  | .tooManyValues => "TooManyValues"

/-- Asking for help or the version is no mistake. -/
def exitCode : UsageError → Nat
  | .displayHelp | .displayVersion => 0
  | _ => 2

end UsageError

-- ============================================================ levels

/-- A place in the tree of commands. -/
inductive Level where
  | root
  | backfill
  | backfillPlan
  | backfillRun
  | backfillDown
  | policy
  | policyList
  | token
  | tokenIssue
  | tokenVerify
deriving DecidableEq

/-- What an option takes. -/
inductive OptionKind where
  | flag
  /-- A value that passes a test. -/
  | value (test : String → Bool)

namespace Level

def subcommands : Level → List (String × Level)
  | .root => [("backfill", .backfill), ("policy", .policy), ("token", .token)]
  | .backfill =>
    [("plan", .backfillPlan), ("run", .backfillRun), ("down", .backfillDown)]
  | .policy => [("list", .policyList)]
  | .token => [("issue", .tokenIssue), ("verify", .tokenVerify)]
  | _ => []

def subcommand? (level : Level) (name : String) : Option Level :=
  (level.subcommands.find? fun s => s.1 == name).map Prod.snd

/-- Does a level have subcommands, and with them the one that shows help? -/
def isBranch (level : Level) : Bool := !level.subcommands.isEmpty

def options : Level → List (String × OptionKind)
  | .root => [("json", .flag), ("help", .flag), ("version", .flag)]
  | .backfillRun =>
    [("json", .flag), ("help", .flag), ("default-org", .value fun _ => true),
      ("ignore-checkpoints", .flag)]
  | .tokenIssue =>
    [("json", .flag), ("help", .flag),
      ("user", .value fun s => (Uuid.ofString? s).isSome)]
  | _ => [("json", .flag), ("help", .flag)]

def option? (level : Level) (name : String) : Option OptionKind :=
  (level.options.find? fun o => o.1 == name).map Prod.snd

/-- Does a level take a free argument? -/
def hasFree (level : Level) : Bool := level == .tokenVerify

/-- The option that a letter stands for. -/
def letter? (level : Level) (c : Char) : Option String :=
  if c = 'h' then some "help"
  else if c = 'V' && level == .root then some "version"
  else none

end Level

-- =========================================================== reading

/-- What was read at a level. -/
structure Given where
  flags : List String
  values : List (String × String)
  free : Option String
  /-- An option whose value was not looked at yet, or not read. -/
  pending : Option (String × Option String)
  /-- Is everything from here on a free argument? -/
  onlyFree : Bool

namespace Given

def nothing : Given := ⟨[], [], none, none, false⟩

def value? (given : Given) (name : String) : Option String :=
  (given.values.find? fun v => v.1 == name).map Prod.snd

/-- Is the next argument the value of an option? -/
def awaitsValue (given : Given) : Bool :=
  match given.pending with
  | some (_, none) => true
  | _ => false

/-- Look at the pending option. -/
def settle (level : Level) (given : Given) : Except UsageError Given :=
  match given.pending with
  | none => .ok given
  | some (_, none) => .error .invalidValue
  | some (name, some value) =>
    if (given.value? name).isSome then .error .argumentConflict
    else match level.option? name with
      | some (.value test) =>
        if test value then
          .ok { given with
            values := (name, value) :: given.values, pending := none }
        else .error .valueValidation
      | _ => .ok { given with pending := none }

def setFlag (level : Level) (name : String) (given : Given) :
    Except UsageError Given := do
  let given ← given.settle level
  if name = "help" then throw .displayHelp
  if name = "version" then throw .displayVersion
  if given.flags.contains name then throw .argumentConflict
  return { given with flags := name :: given.flags }

/-- An option written out, with what stands behind its equals sign. -/
def setOption (level : Level) (name : String) (attached : Option String)
    (given : Given) : Except UsageError Given :=
  match level.option? name, attached with
  | none, _ => .error .unknownArgument
  | some .flag, some _ => .error .tooManyValues
  | some .flag, none => given.setFlag level name
  | some (.value _), none => do
    return { (← given.settle level) with pending := some (name, none) }
  | some (.value _), some value => do
    let given ← given.settle level
    settle level { given with pending := some (name, some value) }

/-- An argument that is no option and no option's value. -/
def setFree (level : Level) (argument : String) (given : Given) :
    Except UsageError Given :=
  if level.hasFree && given.free.isNone then do
    return { (← given.settle level) with free := some argument }
  else if !level.isBranch then .error .unknownArgument
  else if given.onlyFree
    && (argument = "help" || (level.subcommand? argument).isSome) then
    .error .unknownArgument
  else .error .invalidSubcommand

/-- An argument that is no subcommand. -/
def add (level : Level) (argument : String) (given : Given) :
    Except UsageError Given :=
  if given.onlyFree then given.setFree level argument
  else match argument.toList with
    | ['-', '-'] => .ok { given with onlyFree := true }
    | '-' :: '-' :: long =>
      let name := String.ofList (long.takeWhile (· ≠ '='))
      let attached := match long.dropWhile (· ≠ '=') with
        | [] => none
        | _ :: value => some (String.ofList value)
      given.setOption level name attached
    | '-' :: c :: _ =>
      match level.letter? c with
      | some name => given.setFlag level name
      | none => .error .unknownArgument
    | _ =>
      match given.pending with
      | some (name, none) =>
        .ok { given with pending := some (name, some argument) }
      | _ => given.setFree level argument

end Given

/-- What was read in all: the level reached, what was given there, and
whether JSON was asked for anywhere. -/
structure Reading where
  level : Level
  given : Given
  json : Bool

/-- The end of the arguments at a level. -/
def finish (level : Level) (given : Given) : Except UsageError Reading := do
  let given ← given.settle level
  if level.isBranch then
    throw (if given.flags.isEmpty then .displayHelpOnMissing
      else .missingSubcommand)
  return ⟨level, given, given.flags.contains "json"⟩

/-- Help on a command, named from a level on. -/
def help : Level → List String → UsageError
  | _, [] => .displayHelp
  | level, name :: rest =>
    match level.subcommand? name with
    | some level => help level rest
    | none =>
      if level.isBranch && name = "help" && rest.isEmpty then .displayHelp
      else .invalidSubcommand

/-- The arguments from a level on. -/
def read (level : Level) (given : Given) :
    List String → Except UsageError Reading
  | [] => finish level given
  | argument :: rest =>
    let named :=
      if given.onlyFree || given.awaitsValue then none
      else level.subcommand? argument
    match named with
    | some sub => do
      let given ← given.settle level
      let reading ← read sub .nothing rest
      return { reading with
        json := reading.json || given.flags.contains "json" }
    | none =>
      if level.isBranch && !given.onlyFree && argument = "help" then
        .error (help level rest)
      else do read level (← given.add level argument) rest

-- ========================================================== commands

/-- A command to carry out. -/
inductive Command where
  | backfillPlan
  | backfillRun (defaultSlug : Option String) (ignoreCheckpoints : Bool)
  | backfillDown
  | policyList
  | tokenIssue (user : Uuid)
  | tokenVerify (token : String)
deriving DecidableEq

/-- The command that was given, if nothing it needs is missing. -/
def Reading.command (r : Reading) : Except UsageError Command :=
  let required {α : Type} (value : Option α) (command : α → Command) :
      Except UsageError Command :=
    match value with
    | some a => .ok (command a)
    | none => .error .missingRequiredArgument
  match r.level with
  | .backfillPlan => .ok .backfillPlan
  | .backfillRun =>
    .ok (.backfillRun (r.given.value? "default-org")
      (r.given.flags.contains "ignore-checkpoints"))
  | .backfillDown => .ok .backfillDown
  | .policyList => .ok .policyList
  | .tokenIssue =>
    required ((r.given.value? "user").bind Uuid.ofString?) .tokenIssue
  | .tokenVerify => required r.given.free .tokenVerify
  | .root | .backfill | .policy | .token => .error .missingSubcommand

/-- The command of the arguments, and whether its output is to be JSON. -/
def parse (arguments : List String) : Except UsageError (Command × Bool) := do
  let reading ← read .root .nothing arguments
  return (← reading.command, reading.json)

end Tenancy.Cli
