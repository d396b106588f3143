import WorkspaceGraph.Ingestion.Acquire
import WorkspaceGraph.Ingestion.Failure
/-!
Finishing a run: the transaction that commits its snapshot as the next version of the workspace's
graph, and the one that records that the attempt failed.
-/

namespace WorkspaceGraph

structure Commit where
  run : RowId
  linkage : Linkage
  attempts : Nat
deriving DecidableEq, Repr

namespace Commit

inductive Standing
  | ready (run : Run)
  | done (commit : Commit)
deriving Repr

/-- Look up a run that is to be committed. Another attempt may have changed it since it was
acquired. -/
def standing (id : RowId) (workspaceId payloadHash : String) : Transaction Standing := do
  match ← Transaction.findRun id with
  | none => throw (.ingestion .unknownRun)
  | some run =>
      if run.workspaceId ≠ workspaceId then throw (.ingestion .otherWorkspace)
      else if run.payloadHash ≠ payloadHash then throw (.ingestion .otherPayload)
      else
        match run.status with
        | .succeeded => return .done ⟨run.id, ← run.linkage, run.attempts⟩
        | .processing => return .ready run
        | .failed => throw (.ingestion (.wrongState run.status.text))

def versionDraft (run : RowId) (workspaceId payloadHash : String) (number : Int)
    (snapshot : Snapshot) : VersionDraft :=
  let summary := snapshot.summary
  { workspaceId := some workspaceId
    number := some number
    runId := run
    payloadHash := some payloadHash
    schemaVersion := some Snapshot.schemaVersion
    configPath := some snapshot.workspaceConfigPath
    projects := some summary.projects
    libraries := some summary.libraries
    components := some summary.components
    edges := some summary.edges }

def succeed (now : Instant) (linkage : Linkage) (draft : RunDraft) : RunDraft :=
  { draft with
    status := some RunStatus.succeeded.text
    versionId := some linkage.version
    versionNumber := some linkage.number
    errorCode := none
    errorMessage := none
    completedAt := some now }

def nextNumber (head : Option Head) : Int := ((head.map Head.latest).getD 0) + 1

def after (head : Option Head) (now : Instant) (run : Run) (workspaceId payloadHash : String)
    (snapshot : Snapshot) : Transaction Commit := do
  let number := nextNumber head
  let version ← Transaction.insertVersion
    (versionDraft run.id workspaceId payloadHash number snapshot) snapshot
  discard (Transaction.upsertHead (some workspaceId) (some number))
  let linkage : Linkage := ⟨version.id, number⟩
  discard (Transaction.patchRun run.id (succeed now linkage))
  return ⟨run.id, linkage, run.attempts⟩

def make (now : Instant) (id : RowId) (workspaceId payloadHash : String) (snapshot : Snapshot) :
    Transaction Commit := do
  match ← standing id workspaceId payloadHash with
  | .done commit => return commit
  | .ready run =>
      let head ← Transaction.findHead workspaceId
      after head now run workspaceId payloadHash snapshot

end Commit

namespace Failure

def mark (now : Instant) (failure : Failure) (draft : RunDraft) : RunDraft :=
  { draft with
    status := some RunStatus.failed.text
    errorCode := some failure.code
    errorMessage := some failure.message
    completedAt := some now }

def save (now : Instant) (id : RowId) (failure : Failure) : Transaction RunStatus := do
  match ← Transaction.findRun id with
  | none => throw (.ingestion .unknownRun)
  | some run =>
      match run.status with
      | .succeeded => return .succeeded
      | _ =>
          discard (Transaction.patchRun id (mark now failure))
          return .failed

end Failure

end WorkspaceGraph
