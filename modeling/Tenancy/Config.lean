/-
The configuration of the service. Each of three deployment stages has
its defaults, and an environment variable overrides one of them. A
variable whose text does not read as the kind of value that is wanted
leaves the default as it is, with one exception: an unreadable cap on
limits means no cap.
-/
import Tenancy.Json.Basic
import Tenancy.Text.Decimal
import Tenancy.Text.Split

namespace Tenancy

/-- The variables that are set, by name. -/
abbrev Environment := String → Option String

/-- The variables of a list; of two of one name the last counts. -/
def Environment.ofList (settings : List (String × String)) : Environment :=
  fun name =>
  (settings.reverse.find? fun v => v.1 == name).map Prod.snd

/-- Where the service runs. -/
inductive Stage where
  | development
  | staging
  | production
deriving DecidableEq

/-- What is configured of filters. -/
structure FilterConfig where
  /-- The greatest limit a client may ask for. -/
  maxLimit : Option Int
  debugLogging : Bool
deriving DecidableEq

/-- What is configured of the database. -/
structure DatabaseConfig where
  maxConnections : Nat
  connectionTimeout : Nat
  enableQueryLogging : Bool
deriving DecidableEq

/-- What is configured of the service. -/
structure ApiConfig where
  port : Nat
  enableRequestLogging : Bool
deriving DecidableEq

/-- What is configured of tokens, headers and origins. -/
structure SecurityConfig where
  enableCors : Bool
  corsOrigins : List String
  enableAuditLogging : Bool
  jwtSecret : String
  jwtExpiryHours : Nat
  /-- The header that selects an organization, in lower case. -/
  organizationHeader : String
deriving DecidableEq

/-- What is configured of backfills. -/
structure BackfillConfig where
  defaultOrganizationSlug : Option String
  useCheckpoints : Bool
deriving DecidableEq

/-- Everything that can be configured. -/
structure Config where
  stage : Stage
  filter : FilterConfig
  database : DatabaseConfig
  api : ApiConfig
  security : SecurityConfig
  backfill : BackfillConfig
deriving DecidableEq

namespace Config

-- ========================================================== defaults

/-- The defaults of development. -/
def development : Config where
  stage := .development
  filter := ⟨some 1000, true⟩
  database := ⟨10, 30, true⟩
  api := ⟨3000, true⟩
  security := {
    enableCors := true
    corsOrigins := ["http://localhost:3000", "http://localhost:5173"]
    enableAuditLogging := false
    jwtSecret := ""
    jwtExpiryHours := 24 * 7
    organizationHeader := "x-organization-id" }
  backfill := ⟨some "default", true⟩

/-- The defaults of staging. -/
def staging : Config where
  stage := .staging
  filter := ⟨some 500, false⟩
  database := ⟨20, 10, true⟩
  api := ⟨3000, true⟩
  security := {
    enableCors := true
    corsOrigins := ["https://staging.example.com"]
    enableAuditLogging := true
    jwtSecret := ""
    jwtExpiryHours := 24
    organizationHeader := "x-organization-id" }
  backfill := ⟨none, true⟩

/-- The defaults of production. -/
def production : Config where
  stage := .production
  filter := ⟨some 100, false⟩
  database := ⟨50, 5, false⟩
  api := ⟨3000, false⟩
  security := {
    enableCors := true
    corsOrigins := ["https://app.example.com"]
    enableAuditLogging := true
    jwtSecret := ""
    jwtExpiryHours := 4
    organizationHeader := "x-organization-id" }
  backfill := ⟨none, true⟩

/-- The names of all variables that count. -/
def variableNames : List String := [
  "APP_ENV", "FILTER_MAX_LIMIT", "FILTER_DEBUG_LOGGING",
  "DATABASE_MAX_CONNECTIONS", "DATABASE_CONNECTION_TIMEOUT",
  "DATABASE_ENABLE_QUERY_LOGGING", "ORGSCOPE_API_PORT", "PORT",
  "API_ENABLE_REQUEST_LOGGING", "SECURITY_ENABLE_CORS",
  "SECURITY_CORS_ORIGINS", "SECURITY_ENABLE_AUDIT_LOGGING", "JWT_SECRET",
  "SECURITY_JWT_EXPIRY_HOURS", "SECURITY_ORGANIZATION_HEADER",
  "MIGRATION_DEFAULT_ORGANIZATION", "MIGRATION_USE_CHECKPOINTS"]

/-- The stage that the variables name, development unless they name another. -/
def stageOf (env : Environment) : Stage :=
  match env "APP_ENV" with
  | some "production" | some "prod" => .production
  | some "staging" | some "stage" => .staging
  | _ => .development

/-- The defaults of a stage. -/
def defaults : Stage → Config
  | .development => development
  | .staging => staging
  | .production => production

-- ========================================================= overrides

/-- A switch is one of two words. -/
def readBool? : String → Option Bool
  | "true" => some true
  | "false" => some false
  | _ => none

/-- A variable's value, or the default if the variable is not set or not
readable. -/
def override {α : Type} (env : Environment) (name : String)
    (read : String → Option α) (default : α) : α :=
  ((env name).bind read).getD default

/-- A comma-separated list, the blanks around its entries dropped. -/
def readList (s : String) : List String :=
  (Text.splitOn ',' s).map Text.trim

/-- A text that is more than blanks. -/
def nonBlank? (s : String) : Option String :=
  if Text.isBlankText s then none else some s

/-- What the environment says of filters. -/
def overrideFilter (env : Environment) (c : FilterConfig) : FilterConfig where
  maxLimit := match env "FILTER_MAX_LIMIT" with
    | some text => Text.readInt? 0x80000000 text
    | none => c.maxLimit
  debugLogging := override env "FILTER_DEBUG_LOGGING" readBool? c.debugLogging

/-- What the environment says of the database. -/
def overrideDatabase (env : Environment) (c : DatabaseConfig) :
    DatabaseConfig where
  maxConnections :=
    override env "DATABASE_MAX_CONNECTIONS" (Text.readNat? 0xffffffff)
      c.maxConnections
  connectionTimeout :=
    override env "DATABASE_CONNECTION_TIMEOUT"
      (Text.readNat? 0xffffffffffffffff) c.connectionTimeout
  enableQueryLogging :=
    override env "DATABASE_ENABLE_QUERY_LOGGING" readBool? c.enableQueryLogging

/-- The port has two variables; the second counts only if the first is not
set. -/
def overrideApi (env : Environment) (c : ApiConfig) : ApiConfig where
  port :=
    (((env "ORGSCOPE_API_PORT").or (env "PORT")).bind
      (Text.readNat? 0xffff)).getD c.port
  enableRequestLogging :=
    override env "API_ENABLE_REQUEST_LOGGING" readBool? c.enableRequestLogging

/-- What the environment says of security. -/
def overrideSecurity (env : Environment) (c : SecurityConfig) :
    SecurityConfig where
  enableCors := override env "SECURITY_ENABLE_CORS" readBool? c.enableCors
  corsOrigins :=
    override env "SECURITY_CORS_ORIGINS" (some ∘ readList) c.corsOrigins
  enableAuditLogging :=
    override env "SECURITY_ENABLE_AUDIT_LOGGING" readBool? c.enableAuditLogging
  jwtSecret := override env "JWT_SECRET" some c.jwtSecret
  jwtExpiryHours :=
    override env "SECURITY_JWT_EXPIRY_HOURS" (Text.readNat? 0xffffffffffffffff)
      c.jwtExpiryHours
  organizationHeader :=
    override env "SECURITY_ORGANIZATION_HEADER"
      (fun s => (nonBlank? s).map (Text.lowercase ∘ Text.trim))
      c.organizationHeader

/-- What the environment says of backfills. -/
def overrideBackfill (env : Environment) (c : BackfillConfig) :
    BackfillConfig where
  defaultOrganizationSlug := match env "MIGRATION_DEFAULT_ORGANIZATION" with
    | some text => nonBlank? text
    | none => c.defaultOrganizationSlug
  useCheckpoints :=
    override env "MIGRATION_USE_CHECKPOINTS" readBool? c.useCheckpoints

/-- The configuration that the variables make. -/
def ofEnvironment (env : Environment) : Config :=
  let c := defaults (stageOf env)
  { stage := c.stage
    filter := overrideFilter env c.filter
    database := overrideDatabase env c.database
    api := overrideApi env c.api
    security := overrideSecurity env c.security
    backfill := overrideBackfill env c.backfill }

-- =========================================================== written

/-- A stage as it is written. -/
def stageName : Stage → String
  | .development => "Development"
  | .staging => "Staging"
  | .production => "Production"

/-- The configuration as shown, without the secret. -/
def toJson (c : Config) : Json := Json.object [
  ("environment", .str (stageName c.stage)),
  ("filter", Json.object [
    ("max_limit", Json.ofOption .int c.filter.maxLimit),
    ("debug_logging", .bool c.filter.debugLogging)]),
  ("database", Json.object [
    ("max_connections", .ofNat c.database.maxConnections),
    ("connection_timeout", .ofNat c.database.connectionTimeout),
    ("enable_query_logging", .bool c.database.enableQueryLogging)]),
  ("api", Json.object [
    ("port", .ofNat c.api.port),
    ("enable_request_logging", .bool c.api.enableRequestLogging)]),
  ("security", Json.object [
    ("enable_cors", .bool c.security.enableCors),
    ("cors_origins", .strs c.security.corsOrigins),
    ("enable_audit_logging", .bool c.security.enableAuditLogging),
    ("jwt_expiry_hours", .ofNat c.security.jwtExpiryHours),
    ("organization_header", .str c.security.organizationHeader)]),
  ("migration", Json.object [
    ("default_organization_slug",
      Json.ofOption .str c.backfill.defaultOrganizationSlug),
    ("use_checkpoints", .bool c.backfill.useCheckpoints)])]

end Config

end Tenancy
