import WorkspaceGraph.Limits
import WorkspaceGraph.Number.Whole
import WorkspaceGraph.Schema.Checked
import WorkspaceGraph.Text.Case
/-!
Settings: what an installation may choose, taken from the variables of its environment. The case
of a variable's name does not matter; of variables with the same name the last one counts.
-/

namespace WorkspaceGraph

structure Settings where
  projectName : String
  version : String
  apiRoot : String
  environment : String
  debug : Bool
  logLevel : String
  databaseUrl : String
  poolSize : Int
  maxOverflow : Int
  limits : Limits
  scannerName : String
  scannerVersion : String
deriving DecidableEq, Repr

namespace Settings

def valueOf? (name : String) (environment : List (String × String)) : Option String :=
  (environment.reverse.find? fun entry => Text.lower entry.1 = Text.lower name).map (·.2)

def wholeNumber : Schema.Check Int
  | .text value =>
      match Whole.ofPlainText? value with
      | some number => .valid number
      | none => .fail .notIntText
  | _ => .fail .notIntText

def setting {α : Type} (check : Schema.Check α) (name : String) (default : α)
    (environment : List (String × String)) : Schema.Checked α :=
  match valueOf? name environment with
  | some value => (check (.text value)).within name
  | none => .valid default

def textSetting : String → String → List (String × String) → Schema.Checked String :=
  setting Schema.text

def numberSetting : String → Int → List (String × String) → Schema.Checked Int :=
  setting wholeNumber

def limitsOf (environment : List (String × String)) : Schema.Checked Limits :=
  let standard := Limits.standard
  Limits.mk
    <$> numberSetting "MAX_IDEMPOTENCY_KEY_LENGTH" standard.keyLength environment
    <*> numberSetting "MAX_WORKSPACE_ID_LENGTH" standard.workspaceLength environment
    <*> numberSetting "MAX_SCANNER_NAME_LENGTH" standard.scannerNameLength environment
    <*> numberSetting "MAX_SCANNER_VERSION_LENGTH" standard.scannerVersionLength environment
    <*> numberSetting "FINALIZE_MAX_ATTEMPTS" standard.finalizeAttempts environment

def ofEnvironment (environment : List (String × String)) : Schema.Checked Settings :=
  Settings.mk
    <$> textSetting "PROJECT_NAME" "GraphScan" environment
    <*> textSetting "VERSION" "1.0.0" environment
    <*> textSetting "API_V1_STR" "/api/v1" environment
    <*> textSetting "ENVIRONMENT" "development" environment
    <*> setting Schema.bool "DEBUG" false environment
    <*> textSetting "LOG_LEVEL" "INFO" environment
    <*> textSetting "DATABASE_URL" "sqlite+aiosqlite:///./graphscan.db" environment
    <*> numberSetting "DB_POOL_SIZE" 20 environment
    <*> numberSetting "DB_MAX_OVERFLOW" 10 environment
    <*> limitsOf environment
    <*> textSetting "SCANNER_NAME" "workspace-scanner" environment
    <*> textSetting "SCANNER_VERSION" "1.0.0" environment

def toJson (settings : Settings) : Json :=
  .record [
    ("PROJECT_NAME", .text settings.projectName),
    ("VERSION", .text settings.version),
    ("API_V1_STR", .text settings.apiRoot),
    ("ENVIRONMENT", .text settings.environment),
    ("DEBUG", .bool settings.debug),
    ("LOG_LEVEL", .text settings.logLevel),
    ("DATABASE_URL", .text settings.databaseUrl),
    ("DB_POOL_SIZE", .int settings.poolSize),
    ("DB_MAX_OVERFLOW", .int settings.maxOverflow),
    ("MAX_IDEMPOTENCY_KEY_LENGTH", .int settings.limits.keyLength),
    ("MAX_WORKSPACE_ID_LENGTH", .int settings.limits.workspaceLength),
    ("MAX_SCANNER_NAME_LENGTH", .int settings.limits.scannerNameLength),
    ("MAX_SCANNER_VERSION_LENGTH", .int settings.limits.scannerVersionLength),
    ("FINALIZE_MAX_ATTEMPTS", .int settings.limits.finalizeAttempts),
    ("SCANNER_NAME", .text settings.scannerName),
    ("SCANNER_VERSION", .text settings.scannerVersion)]

end Settings

end WorkspaceGraph
