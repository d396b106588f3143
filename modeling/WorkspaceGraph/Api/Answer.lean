import WorkspaceGraph.Ingestion.Service
import WorkspaceGraph.Store.Report
/-!
Answers of the service: a status, and a body that is written as JSON.
-/

namespace WorkspaceGraph

def Linkage.fields (naming : Naming) (linkage : Option Linkage) : List (String × Json) :=
  match linkage with
  | some linkage =>
      [("graphVersionId", .text (naming.version linkage.version)),
        ("graphVersionNumber", .int linkage.number)]
  | none => [("graphVersionId", .null), ("graphVersionNumber", .null)]

def Receipt.toJson (naming : Naming) (receipt : Receipt) : Json :=
  .record ([
    ("status", .text receipt.status.text),
    ("deduplicated", .bool receipt.deduplicated),
    ("scanRunId", .text (naming.run receipt.run))] ++
    Linkage.fields naming receipt.linkage ++
    [("attemptCount", .nat receipt.attempts)])

def Acquisition.toJson (naming : Naming) : Acquisition → Json
  | .acquired run attempts => .record [
      ("outcome", .text "AcquiredRun"), ("scan_run_id", .text (naming.run run)),
      ("attempt_count", .nat attempts)]
  | .inFlight run attempts => .record [
      ("outcome", .text "InFlightRun"), ("scan_run_id", .text (naming.run run)),
      ("attempt_count", .nat attempts)]
  | .deduplicated run linkage attempts => .record [
      ("outcome", .text "DeduplicatedRun"), ("scan_run_id", .text (naming.run run)),
      ("attempt_count", .nat attempts),
      ("graph_version_id", .text (naming.version linkage.version)),
      ("graph_version_number", .int linkage.number)]

def Commit.toJson (naming : Naming) (commit : Commit) : Json :=
  .record [
    ("scan_run_id", .text (naming.run commit.run)),
    ("graph_version_id", .text (naming.version commit.linkage.version)),
    ("graph_version_number", .int commit.linkage.number),
    ("attempt_count", .nat commit.attempts)]

def Run.reportJson (naming : Naming) (run : Run) (linkage : Linkage) : Json :=
  .record ([
    ("scanRunId", .text (naming.run run.id)),
    ("workspaceId", .text run.workspaceId)] ++
    Linkage.fields naming (some linkage) ++ [
    ("payloadHash", .text run.payloadHash),
    ("scannerName", .text run.scanner.name),
    ("scannerVersion", .textOrNull run.scanner.version),
    ("source", .text run.trigger.text),
    ("attemptCount", .nat run.attempts),
    ("projectCount", .int run.counts.projects),
    ("libraryCount", .int run.counts.libraries),
    ("componentCount", .int run.counts.components),
    ("dependencyCount", .int run.counts.edges),
    ("startedAt", .text run.startedAt.text),
    ("completedAt", .textOrNull (run.completedAt.map Instant.text))])

namespace Api

inductive Body
  | empty
  /-- A remark about the request itself. -/
  | detail (text : String)
  | health
  | receipt (receipt : Receipt)
  | latest (found : Option (Run × Linkage))
  | error (code message : String)
deriving Repr

structure Answer where
  status : Nat
  body : Body
deriving Repr

def version : String := "1.0.0"

def environment : String := "development"

def Body.toJson (naming : Naming) : Body → Json
  | empty => .null
  | detail text => .record [("detail", .text text)]
  | health => .record [
      ("status", .text "healthy"), ("version", .text version), ("environment", .text environment)]
  | receipt made => made.toJson naming
  | latest none => .null
  | latest (some (run, linkage)) => run.reportJson naming linkage
  | error code message => .record [("errorCode", .text code), ("message", .text message)]

end Api

end WorkspaceGraph
