import WorkspaceGraph.Client.Payload
import WorkspaceGraph.Client.Post
import WorkspaceGraph.Client.SnapshotFile
import WorkspaceGraph.CommandLine.Report
/-!
The command that posts a snapshot from a build. Every option has variables of the environment that
stand in for it, so that a build needs no arguments.
-/

namespace WorkspaceGraph.CommandLine

/-- A call of the command. Times are in milliseconds. -/
structure IngestCommand where
  url : String
  token : Option String
  snapshotPath : String
  key : Option String
  build : Client.Build
  workspaceId : Option String
  teamProject : Option String
  repositoryName : Option String
  trigger : Trigger
  branch : Option String
  commitSha : Option String
  runId : Option String
  scannerName : String
  scannerVersion : Option String
  attempts : Int
  timeout : Int
  initialPause : Int
  greatestPause : Int
deriving DecidableEq, Repr

namespace IngestCommand

/-! ## Options -/

structure Setting where
  name : String
  standIns : List String
deriving DecidableEq, Repr

def settings : List Setting := [
  ⟨"url", ["INGEST_URL"]⟩,
  ⟨"token", ["INGEST_BEARER_TOKEN"]⟩,
  ⟨"snapshot-file", ["SCAN_SNAPSHOT_FILE"]⟩,
  ⟨"idempotency-key", ["INGEST_IDEMPOTENCY_KEY"]⟩,
  ⟨"build-reason", ["BUILD_REASON"]⟩,
  ⟨"build-id", ["BUILD_BUILDID"]⟩,
  ⟨"job-attempt", ["SYSTEM_JOBATTEMPT"]⟩,
  ⟨"workspace-id", ["SCAN_WORKSPACE_ID"]⟩,
  ⟨"team-project", ["SYSTEM_TEAMPROJECT"]⟩,
  ⟨"repository-name", ["BUILD_REPOSITORY_NAME"]⟩,
  ⟨"source", ["INGEST_SOURCE"]⟩,
  ⟨"branch", ["INGEST_BRANCH", "BUILD_SOURCEBRANCHNAME", "BUILD_SOURCEBRANCH"]⟩,
  ⟨"commit-sha", ["INGEST_COMMIT_SHA", "BUILD_SOURCEVERSION"]⟩,
  ⟨"run-id", ["INGEST_RUN_ID", "BUILD_BUILDID"]⟩,
  ⟨"scanner-name", ["SCANNER_NAME"]⟩,
  ⟨"scanner-version", ["SCANNER_VERSION"]⟩,
  ⟨"max-attempts", ["INGEST_MAX_ATTEMPTS"]⟩,
  ⟨"timeout-ms", ["INGEST_TIMEOUT_MS"]⟩,
  ⟨"initial-backoff-ms", ["INGEST_INITIAL_BACKOFF_MS"]⟩,
  ⟨"max-backoff-ms", ["INGEST_MAX_BACKOFF_MS"]⟩]

def switches : List Switch := settings.map fun setting => ⟨setting.name, none, true⟩

def standInsOf (name : String) : List String :=
  ((settings.find? fun setting => setting.name = name).map Setting.standIns).getD []

/-- The value of an option: the one that was given, or that of a variable. An empty variable is as
good as none. -/
def value? (environment : String → Option String) (arguments : Arguments) (name : String) :
    Option String :=
  arguments.value? name <|> firstGiven ((standInsOf name).map environment)

def triggerOf (name word : String) : Except Misuse Trigger :=
  match Trigger.ofText? word with
  | some trigger => .ok trigger
  | none => .error (.notOffered name word)

def ofArguments (environment : String → Option String) (tree : FileTree) (directory : String)
    (arguments : Arguments) : Except Misuse IngestCommand := do
  let value? := value? environment arguments
  let text? := fun name => (value? name).bind Text.trimmed?
  let number := fun (name : String) (default : Int) =>
    ((value? name).map (positive name)).getD (.ok default)
  match arguments.words with
  | word :: _ => .error (.extraWord word)
  | [] =>
      match value? "url" with
      | none => .error (.optionMissing "url")
      | some url =>
          .ok {
            url
            token := text? "token"
            snapshotPath := ← filePath tree directory "snapshot-file"
              ((value? "snapshot-file").getD "scan-snapshot.json")
            key := text? "idempotency-key"
            build := ⟨text? "build-reason", text? "build-id", text? "job-attempt"⟩
            workspaceId := text? "workspace-id"
            teamProject := text? "team-project"
            repositoryName := text? "repository-name"
            trigger := ← triggerOf "source" ((value? "source").getD Trigger.pipeline.text)
            branch := text? "branch"
            commitSha := text? "commit-sha"
            runId := text? "run-id"
            scannerName := (value? "scanner-name").getD "workspace-scanner"
            scannerVersion := text? "scanner-version"
            attempts := ← number "max-attempts" 4
            timeout := ← number "timeout-ms" 30000
            initialPause := ← number "initial-backoff-ms" 2000
            greatestPause := ← number "max-backoff-ms" 15000 }

/-! ## Posting -/

def seconds? (milliseconds : Int) : Option Amount :=
  match Binary64.ofFraction (milliseconds < 0) milliseconds.natAbs 1000 with
  | .infinite _ => none
  | value => some (.real value)

def client? (command : IngestCommand) : Option Client := do
  let timeout ← seconds? command.timeout
  let initialPause ← seconds? command.initialPause
  let greatestPause ← seconds? command.greatestPause
  some {
    url := command.url
    token := command.token
    timeout
    attempts := command.attempts
    initialPause
    greatestPause }

inductive Fault
  | malformedSnapshot
  | timeOverflow
  | posting (error : Client.PostError)
deriving DecidableEq, Repr

structure Posting where
  client : Client
  request : Client.Sent
  transcript : Client.Transcript
deriving Repr

structure Result where
  report : Report
  fault : Option Fault
  posting : Option Posting
deriving Repr

def line (text : String) : String := "[scan-ingestion] " ++ text

def failed (output : List String) (message : String) : Result :=
  ⟨⟨1, lines output, lines [line message]⟩, none, none⟩

def brokenOff (output : List String) (fault : Fault) : Result :=
  ⟨⟨1, lines output, ""⟩, some fault, none⟩

def concluded (output : List String) (posting : Posting) : Result :=
  let log := logLines .info posting.transcript.log
  match posting.transcript.result with
  | .ok response =>
      let last := line ("Completed with HTTP " ++ toString response.status ++ ": " ++
        Text.trim response.text)
      ⟨⟨0, lines (output ++ [last]), lines log⟩, none, some posting⟩
  | .error (.rejected message) =>
      ⟨⟨1, lines output, lines (log ++ [line message])⟩, none, some posting⟩
  | .error error => ⟨⟨1, lines output, lines log⟩, some (.posting error), some posting⟩

def workspace (command : IngestCommand) : String :=
  Client.deriveWorkspaceId command.workspaceId command.teamProject command.repositoryName

def payload (command : IngestCommand) (key : String) (snapshot : Json) : Json :=
  Client.payload key command.workspace command.trigger command.scannerName command.scannerVersion
    (Client.deriveOrigin command.branch command.commitSha command.runId) snapshot

def announcement (command : IngestCommand) (key : String) : String :=
  line ("Posting snapshot from " ++ command.snapshotPath ++ " for workspace " ++
    command.workspace ++ " with idempotency key " ++ key ++ ".")

def run (tree : FileTree) (directory : String) (outcome : Nat → Client.Outcome)
    (command : IngestCommand) : Result :=
  match Client.readSnapshot tree directory command.snapshotPath with
  | .error .malformedText => brokenOff [] .malformedSnapshot
  | .error error => failed [] error.message
  | .ok snapshot =>
      match Client.deriveKey? command.key command.build with
      | none => failed [] Client.noKeyMessage
      | some key =>
          let output := [command.announcement key]
          match command.client? with
          | none => brokenOff output .timeOverflow
          | some client =>
              let payload := command.payload key snapshot
              concluded output
                ⟨client, client.request payload, client.post outcome payload⟩

def call (environment : String → Option String) (tree : FileTree) (directory : String)
    (outcome : Nat → Client.Outcome) (arguments : List String) : Ending Result :=
  CommandLine.call switches (ofArguments environment tree directory) (run tree directory outcome)
    arguments

end IngestCommand

end WorkspaceGraph.CommandLine
