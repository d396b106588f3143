import WorkspaceGraph.Json.Writer
import WorkspaceGraph.Store.Draft
import WorkspaceGraph.Store.Naming
/-!
Rows in JSON. Columns have names of their own there; by them a row is shown, and a draft is filled
in.
-/

namespace WorkspaceGraph

def Json.intOrNull : Option Int → Json
  | some value => .int value
  | none => .null

/-! ## Showing rows -/

def Run.toJson (naming : Naming) (run : Run) : Json :=
  .record [
    ("idempotencyKey", .text run.key),
    ("payloadHash", .text run.payloadHash),
    ("workspaceId", .text run.workspaceId),
    ("scannerName", .text run.scanner.name),
    ("scannerVersion", .textOrNull run.scanner.version),
    ("source", .text run.trigger.text),
    ("status", .text run.status.text),
    ("attemptCount", .nat run.attempts),
    ("projectCount", .int run.counts.projects),
    ("libraryCount", .int run.counts.libraries),
    ("componentCount", .int run.counts.components),
    ("dependencyCount", .int run.counts.edges),
    ("metadata", run.origin),
    ("graphVersionId", .textOrNull (run.versionId.map naming.version)),
    ("graphVersionNumber", .intOrNull run.versionNumber),
    ("errorCode", .textOrNull run.errorCode),
    ("errorMessage", .textOrNull run.errorMessage),
    ("startedAt", .text run.startedAt.fullText),
    ("completedAt", .textOrNull (run.completedAt.map Instant.fullText))]

def Head.toJson (head : Head) : Json :=
  .record [("workspaceId", .text head.workspaceId), ("latestVersion", .int head.latest)]

def Version.sortedJson (rows : List Json) : Json :=
  .list (Order.sortOn (fun row => [Json.render .spaced row.sorted]) rows)

def Version.toJson (naming : Naming) (version : Version) : Json :=
  .record [
    ("workspaceId", .text version.workspaceId),
    ("version", .nat version.number),
    ("payloadHash", .text version.payloadHash),
    ("schemaVersion", .int version.schemaVersion),
    ("workspaceConfigPath", .text version.configPath),
    ("projectCount", .int version.counts.projects),
    ("libraryCount", .int version.counts.libraries),
    ("componentCount", .int version.counts.components),
    ("dependencyCount", .int version.counts.edges),
    ("scanRunId", .text (naming.run version.runId)),
    ("projects", sortedJson (version.projects.map Snapshot.ProjectNode.toJson)),
    ("components", sortedJson (version.components.map Snapshot.ComponentNode.toJson)),
    ("dependencies", sortedJson (version.edges.map Snapshot.Edge.toJson))]

namespace Store

def runsByKey (store : Store) : List Run := Order.sortOn (fun run => [run.key]) store.runs

def versionsOf (store : Store) (workspaceId : String) : List Version :=
  (store.versionNumbers workspaceId).filterMap (store.version? workspaceId)

def versionsInOrder (store : Store) : List Version :=
  (Order.distinct (store.versions.map (·.workspaceId))).flatMap store.versionsOf

def headsJson (store : Store) : Json :=
  .record (store.heads.map fun head => (head.workspaceId, .int head.latest))

def toJson (store : Store) : Json :=
  .record [
    ("runs", .list (store.runsByKey.map (Run.toJson store.naming))),
    ("versions", .list (store.versionsInOrder.map (Version.toJson store.naming))),
    ("heads", store.headsJson)]

def overview (store : Store) : Json :=
  let runs := store.runsByKey.map fun run => Json.list [
    .text run.key, .text run.status.text, .nat run.attempts, .intOrNull run.versionNumber,
    .textOrNull run.errorCode]
  .record [("runs", .list runs), ("heads", store.headsJson)]

end Store

/-! ## Filling in drafts -/

namespace Draft

/-- The value of a column: as it is given, also if it is null, and otherwise as it was. -/
def column {α : Type} (fields : Json) (name : String) (read : Json → Option α)
    (before : Option α) : Option α :=
  match fields.field? name with
  | some value => read value
  | none => before

def text (fields : Json) (name : String) : Option String → Option String :=
  column fields name Json.text?

def int (fields : Json) (name : String) : Option Int → Option Int :=
  column fields name fun value =>
    match value with
    | .int value => some value
    | _ => none

def instant (fields : Json) (name : String) : Option Instant → Option Instant :=
  column fields name fun value => value.text?.bind Instant.ofText?

end Draft

def RunDraft.fill (fields : Json) (draft : RunDraft) : RunDraft where
  key := Draft.text fields "idempotencyKey" draft.key
  payloadHash := Draft.text fields "payloadHash" draft.payloadHash
  workspaceId := Draft.text fields "workspaceId" draft.workspaceId
  scannerName := Draft.text fields "scannerName" draft.scannerName
  scannerVersion := Draft.text fields "scannerVersion" draft.scannerVersion
  trigger := Draft.text fields "source" draft.trigger
  status := Draft.text fields "status" draft.status
  attempts := Draft.int fields "attemptCount" draft.attempts
  projects := Draft.int fields "projectCount" draft.projects
  libraries := Draft.int fields "libraryCount" draft.libraries
  components := Draft.int fields "componentCount" draft.components
  edges := Draft.int fields "dependencyCount" draft.edges
  origin := (fields.field? "metadata").getD draft.origin
  versionId :=
    Draft.column fields "graphVersionId" (fun value => value.text?.map RowId.named)
      draft.versionId
  versionNumber := Draft.int fields "graphVersionNumber" draft.versionNumber
  errorCode := Draft.text fields "errorCode" draft.errorCode
  errorMessage := Draft.text fields "errorMessage" draft.errorMessage
  startedAt := Draft.instant fields "startedAt" draft.startedAt
  completedAt := Draft.instant fields "completedAt" draft.completedAt

def VersionDraft.fill (fields : Json) (draft : VersionDraft) : VersionDraft where
  workspaceId := Draft.text fields "workspaceId" draft.workspaceId
  number := Draft.int fields "version" draft.number
  runId := draft.runId
  payloadHash := Draft.text fields "payloadHash" draft.payloadHash
  schemaVersion := Draft.int fields "schemaVersion" draft.schemaVersion
  configPath := Draft.text fields "workspaceConfigPath" draft.configPath
  projects := Draft.int fields "projectCount" draft.projects
  libraries := Draft.int fields "libraryCount" draft.libraries
  components := Draft.int fields "componentCount" draft.components
  edges := Draft.int fields "dependencyCount" draft.edges

end WorkspaceGraph
