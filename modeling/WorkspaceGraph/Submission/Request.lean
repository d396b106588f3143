import WorkspaceGraph.Snapshot.Wire
/-!
Requests: a snapshot together with the key under which it is submitted, the workspace it belongs to
and where it came from.
-/

namespace WorkspaceGraph

inductive Trigger
  | manual
  | pipeline
  | scheduled
deriving DecidableEq, Repr

namespace Trigger

def text : Trigger → String
  | manual => "manual"
  | pipeline => "pipeline"
  | scheduled => "scheduled"

def ofText? : String → Option Trigger
  | "manual" => some manual
  | "pipeline" => some pipeline
  | "scheduled" => some scheduled
  | _ => none

def words : List String := [manual, pipeline, scheduled].map text

end Trigger

namespace Request

structure Scanner where
  name : String
  version : Option String
deriving DecidableEq, Repr

structure Origin where
  branch : Option String
  commitSha : Option String
  runId : Option String
deriving DecidableEq, Repr

end Request

structure Request where
  key : String
  workspaceId : String
  trigger : Trigger
  scanner : Request.Scanner
  origin : Option Request.Origin
  snapshot : Snapshot
deriving DecidableEq, Repr

namespace Request

/-! ## Writing -/

def Scanner.toJson (scanner : Scanner) : Json :=
  .record [("name", .text scanner.name), ("version", .textOrNull scanner.version)]

def Origin.toJson (origin : Origin) : Json :=
  .record [
    ("branch", .textOrNull origin.branch),
    ("commitSha", .textOrNull origin.commitSha),
    ("runId", .textOrNull origin.runId)]

def Origin.knownJson (origin : Origin) : Json :=
  .record ([("branch", origin.branch), ("commitSha", origin.commitSha), ("runId", origin.runId)]
    |>.filterMap fun field => field.2.map fun value => (field.1, Json.text value))

def toJson (request : Request) : Json :=
  .record [
    ("idempotencyKey", .text request.key),
    ("workspaceId", .text request.workspaceId),
    ("source", .text request.trigger.text),
    ("scanner", request.scanner.toJson),
    ("metadata", (request.origin.map Origin.toJson).getD .null),
    ("snapshot", request.snapshot.toJson)]

/-! ## Checking -/

open Schema in
def Scanner.check : Check Scanner :=
  Schema.record "ScannerInfo" fun fields =>
    Scanner.mk
      <$> required (.single "name") Schema.text fields
      <*> optional (.single "version") none (nullable Schema.text) fields

open Schema in
def Origin.check : Check Origin :=
  Schema.record "IngestionMetadata" fun fields =>
    Origin.mk
      <$> optional (.single "branch") none (nullable Schema.text) fields
      <*> optional ⟨"commitSha", "commit_sha"⟩ none (nullable Schema.text) fields
      <*> optional ⟨"runId", "run_id"⟩ none (nullable Schema.text) fields

open Schema in
/-- A request without a trigger was made by hand. -/
def check : Check Request :=
  Schema.record "IngestionRequest" fun fields =>
    Request.mk
      <$> required ⟨"idempotencyKey", "idempotency_key"⟩ Schema.text fields
      <*> required ⟨"workspaceId", "workspace_id"⟩ Schema.text fields
      <*> optional (.single "source") .manual (choice Trigger.ofText? Trigger.words) fields
      <*> required (.single "scanner") Scanner.check fields
      <*> optional (.single "metadata") none (nullable Origin.check) fields
      <*> required (.single "snapshot") Snapshot.check fields

end Request

end WorkspaceGraph
