import WorkspaceGraph.Store.Basic
/-!
Drafts of rows. A draft holds the columns of a row as they are to be written: any column may be
missing, and a word or a number may be one that the column does not take. A row is made of a draft
that breaks no constraint.
-/

namespace WorkspaceGraph

inductive Violation
  | missing (column : String)
  | refused (check : String)
  /-- A value is taken that has to be the only one. -/
  | repeated (column : String)
deriving DecidableEq, Repr

def Violation.text (table : String) : Violation → String
  | missing column => "NOT NULL constraint failed: " ++ table ++ "." ++ column
  | refused check => "CHECK constraint failed: " ++ check
  | repeated column => "UNIQUE constraint failed: " ++ table ++ "." ++ column

namespace Draft

def present {α : Type} (column : String) : Option α → Except Violation α
  | some value => .ok value
  | none => .error (.missing column)

def passing {α : Type} (check : String) : Option α → Except Violation α
  | some value => .ok value
  | none => .error (.refused check)

end Draft

/-! ## Runs -/

structure RunDraft where
  key : Option String
  payloadHash : Option String
  workspaceId : Option String
  scannerName : Option String
  scannerVersion : Option String
  trigger : Option String
  status : Option String
  attempts : Option Int
  projects : Option Int
  libraries : Option Int
  components : Option Int
  edges : Option Int
  origin : Json
  versionId : Option RowId
  versionNumber : Option Int
  errorCode : Option String
  errorMessage : Option String
  startedAt : Option Instant
  completedAt : Option Instant
deriving Repr

namespace RunDraft

def table : String := "scan_runs"

def ofRun (run : Run) : RunDraft where
  key := some run.key
  payloadHash := some run.payloadHash
  workspaceId := some run.workspaceId
  scannerName := some run.scanner.name
  scannerVersion := run.scanner.version
  trigger := some run.trigger.text
  status := some run.status.text
  attempts := some run.attempts
  projects := some run.counts.projects
  libraries := some run.counts.libraries
  components := some run.counts.components
  edges := some run.counts.edges
  origin := run.origin
  versionId := run.versionId
  versionNumber := run.versionNumber
  errorCode := run.errorCode
  errorMessage := run.errorMessage
  startedAt := some run.startedAt
  completedAt := run.completedAt

def withDefaults (draft : RunDraft) : RunDraft :=
  { draft with
    trigger := some (draft.trigger.getD Trigger.manual.text)
    status := some (draft.status.getD RunStatus.processing.text)
    attempts := some (draft.attempts.getD 1)
    projects := some (draft.projects.getD 0)
    libraries := some (draft.libraries.getD 0)
    components := some (draft.components.getD 0)
    edges := some (draft.edges.getD 0) }

def attempts? (count : Int) : Option Nat := if 1 ≤ count then some count.toNat else none

/-- The row of a draft, or the first constraint it breaks: first every column has to have a value,
then the checks have to pass. -/
def toRun (id : RowId) (draft : RunDraft) : Except Violation Run := do
  let key ← Draft.present "idempotency_key" draft.key
  let payloadHash ← Draft.present "payload_hash" draft.payloadHash
  let workspaceId ← Draft.present "workspace_id" draft.workspaceId
  let scannerName ← Draft.present "scanner_name" draft.scannerName
  let trigger ← Draft.present "source" draft.trigger
  let status ← Draft.present "status" draft.status
  let attempts ← Draft.present "attempt_count" draft.attempts
  let projects ← Draft.present "project_count" draft.projects
  let libraries ← Draft.present "library_count" draft.libraries
  let components ← Draft.present "component_count" draft.components
  let edges ← Draft.present "dependency_count" draft.edges
  let startedAt ← Draft.present "started_at" draft.startedAt
  let status ← Draft.passing "scan_runs_status_check" (RunStatus.ofText? status)
  let trigger ← Draft.passing "scan_runs_source_check" (Trigger.ofText? trigger)
  let attempts ← Draft.passing "scan_runs_attempt_count_check" (attempts? attempts)
  .ok {
    id, key, payloadHash, workspaceId, trigger, status, attempts, startedAt
    scanner := ⟨scannerName, draft.scannerVersion⟩
    counts := ⟨projects, libraries, components, edges⟩
    origin := draft.origin
    versionId := draft.versionId
    versionNumber := draft.versionNumber
    errorCode := draft.errorCode
    errorMessage := draft.errorMessage
    completedAt := draft.completedAt }

end RunDraft

/-! ## Versions -/

structure VersionDraft where
  workspaceId : Option String
  number : Option Int
  runId : RowId
  payloadHash : Option String
  schemaVersion : Option Int
  configPath : Option String
  projects : Option Int
  libraries : Option Int
  components : Option Int
  edges : Option Int
deriving Repr

namespace VersionDraft

def number? (number : Int) : Option Nat := if 1 ≤ number then some number.toNat else none

def edges? (edges : List Snapshot.Edge) : Option (List Snapshot.Edge) :=
  if edges.all fun edge => edge.source != edge.target then some edges else none

def toVersion (id : RowId) (snapshot : Snapshot) (draft : VersionDraft) :
    Except Violation Version := do
  let workspaceId ← Draft.present "workspace_id" draft.workspaceId
  let number ← Draft.present "version" draft.number
  let payloadHash ← Draft.present "payload_hash" draft.payloadHash
  let schemaVersion ← Draft.present "schema_version" draft.schemaVersion
  let configPath ← Draft.present "workspace_config_path" draft.configPath
  let projects ← Draft.present "project_count" draft.projects
  let libraries ← Draft.present "library_count" draft.libraries
  let components ← Draft.present "component_count" draft.components
  let edges ← Draft.present "dependency_count" draft.edges
  let number ← Draft.passing "graph_versions_version_check" (number? number)
  let stored ← Draft.passing "graph_dependencies_no_self_edge" (edges? snapshot.edges)
  .ok {
    id, workspaceId, number, payloadHash, schemaVersion, configPath
    runId := draft.runId
    counts := ⟨projects, libraries, components, edges⟩
    projects := snapshot.projects
    components := snapshot.components
    edges := stored }

end VersionDraft

end WorkspaceGraph
