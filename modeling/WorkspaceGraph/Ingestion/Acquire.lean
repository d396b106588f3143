import WorkspaceGraph.Store.Transaction
import WorkspaceGraph.Submission.Basic
/-!
Acquiring a key: the transaction in which a submission becomes an attempt of its key's run, or
learns why it must not.
-/

namespace WorkspaceGraph

structure Linkage where
  version : RowId
  number : Int
deriving DecidableEq, Repr

def Run.linkage? (run : Run) : Option Linkage :=
  match run.versionId, run.versionNumber with
  | some version, some number => some ⟨version, number⟩
  | _, _ => none

/-- The version a run names; a run that succeeded has to name one. -/
def Run.linkage (run : Run) : Transaction Linkage :=
  match run.linkage? with
  | some linkage => pure linkage
  | none => throw (.ingestion .missingLinkage)

inductive Acquisition
  /-- The run is the submission's to finish. -/
  | acquired (run : RowId) (attempts : Nat)
  /-- The same payload succeeded before. -/
  | deduplicated (run : RowId) (linkage : Linkage) (attempts : Nat)
  | inFlight (run : RowId) (attempts : Nat)
deriving DecidableEq, Repr

namespace Acquisition

/-- Write what every attempt writes: what is submitted, and that it is in progress from now on. -/
def begin (now : Instant) (submission : Submission) (draft : RunDraft) : RunDraft :=
  let summary := submission.snapshot.summary
  { draft with
    payloadHash := some submission.payloadHash
    workspaceId := some submission.workspaceId
    scannerName := some submission.scanner.name
    scannerVersion := submission.scanner.version
    trigger := some submission.trigger.text
    status := some RunStatus.processing.text
    projects := some summary.projects
    libraries := some summary.libraries
    components := some summary.components
    edges := some summary.edges
    origin := (submission.origin.map Request.Origin.knownJson).getD .null
    startedAt := some now
    completedAt := none }

def blank (key : String) : RunDraft where
  key := some key
  payloadHash := none
  workspaceId := none
  scannerName := none
  scannerVersion := none
  trigger := none
  status := none
  attempts := none
  projects := none
  libraries := none
  components := none
  edges := none
  origin := .null
  versionId := none
  versionNumber := none
  errorCode := none
  errorMessage := none
  startedAt := none
  completedAt := none

def first (now : Instant) (submission : Submission) : RunDraft :=
  { begin now submission (blank submission.key) with attempts := some 1 }

/-- Another attempt, after which nothing is left of the one before. -/
def another (now : Instant) (submission : Submission) (attempts : Nat) (draft : RunDraft) :
    RunDraft :=
  { begin now submission draft with
    attempts := some attempts
    versionId := none
    versionNumber := none
    errorCode := none
    errorMessage := none }

def make (now : Instant) (submission : Submission) : Transaction Acquisition := do
  let existing ← Transaction.findRunWithKey submission.key
  match Decision.make Run.status Run.payloadHash existing submission.payloadHash with
  | .refuse => throw (.ingestion .keyReused)
  | .deduplicate run => return deduplicated run.id (← run.linkage) run.attempts
  | .wait run => return inFlight run.id run.attempts
  | .acquire =>
      let run ← Transaction.insertRun (first now submission)
      return acquired run.id 1
  | .retry run =>
      let attempts := run.attempts + 1
      discard (Transaction.patchRun run.id (another now submission attempts))
      return acquired run.id attempts

end Acquisition

end WorkspaceGraph
