import WorkspaceGraph.Submission.Request
import WorkspaceGraph.Snapshot.Canonical
import WorkspaceGraph.Ingestion.Error
import WorkspaceGraph.Digest
import WorkspaceGraph.Limits
import WorkspaceGraph.Text.Blank
/-!
Submissions: requests in normal form. Names are trimmed and within their limits, the snapshot is
canonical, and the payload has its fingerprint.
-/

namespace WorkspaceGraph

structure Submission where
  key : String
  workspaceId : String
  trigger : Trigger
  scanner : Request.Scanner
  origin : Option Request.Origin
  snapshot : Snapshot
  payloadHash : String
deriving DecidableEq, Repr

namespace Submission

/-! ## Normal forms of fields -/

def normalizeRequired (field : String) (limit : Int) (value : String) :
    Except IngestionError String :=
  let trimmed := Text.trim value
  if trimmed.isEmpty then .error (.required field)
  else if limit < trimmed.length then .error (.tooLong field limit)
  else .ok trimmed

def normalizeKey (limits : Limits) : String → Except IngestionError String :=
  normalizeRequired "idempotencyKey" limits.keyLength

def normalizeWorkspaceId (limits : Limits) : String → Except IngestionError String :=
  normalizeRequired "workspaceId" limits.workspaceLength

def normalizeScannerName (limits : Limits) : String → Except IngestionError String :=
  normalizeRequired "scanner.name" limits.scannerNameLength

def normalizeScannerVersion (limits : Limits) (version : Option String) :
    Except IngestionError (Option String) :=
  match version.bind Text.trimmed? with
  | none => .ok none
  | some trimmed =>
      if limits.scannerVersionLength < trimmed.length then
        .error (.tooLong "scanner.version" limits.scannerVersionLength)
      else .ok (some trimmed)

def trimOrigin (origin : Request.Origin) : Request.Origin where
  branch := origin.branch.bind Text.trimmed?
  commitSha := origin.commitSha.bind Text.trimmed?
  runId := origin.runId.bind Text.trimmed?

def normalizeOrigin (origin : Option Request.Origin) : Option Request.Origin :=
  match origin.map trimOrigin with
  | some ⟨none, none, none⟩ => none
  | trimmed => trimmed

/-! ## Preparing -/

/-- The fingerprint of what is submitted. The key and the origin are no part of it. -/
def fingerprint (workspaceId : String) (scanner : Request.Scanner) (snapshot : Snapshot) :
    String :=
  Digest.ofPayload workspaceId scanner.name scanner.version snapshot.toJson

def prepare (limits : Limits) (request : Request) : Except IngestionError Submission := do
  let workspaceId ← normalizeWorkspaceId limits request.workspaceId
  let name ← normalizeScannerName limits request.scanner.name
  let version ← normalizeScannerVersion limits request.scanner.version
  let key ← normalizeKey limits request.key
  let snapshot := request.snapshot.canonical
  .ok {
    key, workspaceId, snapshot
    trigger := request.trigger
    scanner := ⟨name, version⟩
    origin := normalizeOrigin request.origin
    payloadHash := fingerprint workspaceId ⟨name, version⟩ snapshot }

end Submission

end WorkspaceGraph
