import WorkspaceGraph.Ingestion.Commit
import WorkspaceGraph.Log.Entry
/-!
The ingestion service. A submission acquires its key, is committed and, if that fails, recorded as
failed, each in a transaction of its own, so that other clients may act in between. Races that are
lost to them are run again.
-/

namespace WorkspaceGraph

structure World where
  store : Store
  faults : Faults
  log : List Log.Entry
deriving Repr

/-- An action of the service. Its effects up to an error remain. -/
abbrev Service := ExceptT StoreError (StateM World)

namespace Service

def note (entry : Log.Entry) : Service Unit :=
  modify fun world => { world with log := world.log ++ [entry] }

def transact {α : Type} (body : Transaction α) : Service α := do
  let world ← get
  let (result, store, faults) := body.execute world.store world.faults
  set { world with store, faults }
  match result with
  | .ok value => pure value
  | .error error => throw error

def inspect {α : Type} (body : Transaction α) : Service α := do
  let world ← get
  let (result, faults) := body.observe world.store world.faults
  set { world with faults }
  match result with
  | .ok value => pure value
  | .error error => throw error

/-! ## Acquiring -/

def lostKey (key : String) : Log.Entry where
  level := .info
  message := "Lost idempotency key insert race, re-evaluating"
  workspaceId := none
  run := none
  key := some key

/-- Acquire the submission's key. A submission that another one overtakes is decided on again. -/
def acquire (now : Instant) (submission : Submission) : Service Acquisition := do
  try transact (Acquisition.make now submission)
  catch
    | .keyTaken _ =>
        note (lostKey submission.key)
        transact (Acquisition.make now submission)
    | error => throw error

/-! ## Committing -/

def lostVersion (run : RowId) (workspaceId : String) (version : Option Int)
    (attempt attempts : Nat) : Log.Entry where
  level := .info
  message := "Graph version " ++ StoreError.versionText version ++
    " was committed concurrently, retrying finalize (" ++ toString attempt ++ "/" ++
    toString attempts ++ ")"
  workspaceId := some workspaceId
  run := some run
  key := none

/-- Try to commit, the first time as the given attempt, and again after every race lost, as long as
there are attempts left after it. -/
def commitFrom (commit : Transaction Commit) (lost : Option Int → Nat → Log.Entry)
    (attempt : Nat) : Nat → Service Commit
  | 0 => transact commit
  | left + 1 => do
      try transact commit
      catch
        | .versionTaken _ version =>
            note (lost version attempt)
            commitFrom commit lost (attempt + 1) left
        | error => throw error

def commit (limits : Limits) (now : Instant) (run : RowId) (workspaceId payloadHash : String)
    (snapshot : Snapshot) : Service Commit :=
  commitFrom (Commit.make now run workspaceId payloadHash snapshot)
    (fun version attempt => lostVersion run workspaceId version attempt limits.attempts) 1
    (limits.attempts - 1)

def markFailed (now : Instant) (run : RowId) (failure : Failure) : Service RunStatus :=
  transact (failure.save now run)

end Service

/-! ## Ingesting -/

/-- The answer to a submission. There is no linkage as long as the run is in progress. -/
structure Receipt where
  run : RowId
  deduplicated : Bool
  linkage : Option Linkage
  attempts : Nat
deriving DecidableEq, Repr

namespace Receipt

def status (receipt : Receipt) : RunStatus :=
  match receipt.linkage with
  | some _ => .succeeded
  | none => .processing

end Receipt

namespace Service

def about (submission : Submission) (run : Option RowId) (level : Log.Level) (message : String) :
    Log.Entry where
  level := level
  message := message
  workspaceId := some submission.workspaceId
  run := run
  key := some submission.key

/-- What is answered when a commit fails: an ingestion error is passed on, and any other is
described by its record. -/
def answerTo (error : StoreError) (failure : Failure) : StoreError :=
  match error with
  | .ingestion error => .ingestion error
  | _ => .ingestion (.attemptFailed failure.code failure.message)

/-- Commit a submission for the run it has acquired. If that fails, the run is marked as failed. -/
def finish (limits : Limits) (now : Instant) (submission : Submission) (run : RowId) :
    Service Receipt := do
  let made ←
    try
      commit limits now run submission.workspaceId submission.payloadHash submission.snapshot
    catch error =>
      let failure := Failure.ofError error
      note (about submission (some run) .error
        ("Ingestion failed [" ++ failure.code ++ "]: " ++ failure.message))
      discard (markFailed now run failure)
      throw (answerTo error failure)
  note (about submission (some run) .info
    ("Committed graph version " ++ toString made.linkage.number))
  return ⟨made.run, false, some made.linkage, made.attempts⟩

def ingestSubmission (limits : Limits) (now : Instant) (submission : Submission) :
    Service Receipt := do
  match ← acquire now submission with
  | .deduplicated run linkage attempts =>
      note (about submission none .info
        "Deduplicated ingestion of an already committed snapshot")
      return ⟨run, true, some linkage, attempts⟩
  | .inFlight run attempts =>
      note (about submission none .info "Ingestion for this key is still processing")
      return ⟨run, true, none, attempts⟩
  | .acquired run _ => finish limits now submission run

def prepare (limits : Limits) (request : Request) : Service Submission :=
  match Submission.prepare limits request with
  | .ok submission => pure submission
  | .error error => throw (.ingestion error)

def ingest (limits : Limits) (now : Instant) (request : Request) : Service Receipt := do
  ingestSubmission limits now (← prepare limits request)

/-! ## Asking -/

def latest (limits : Limits) (workspaceId : String) : Service (Option (Run × Linkage)) := do
  match Submission.normalizeWorkspaceId limits workspaceId with
  | .error error => throw (.ingestion error)
  | .ok workspaceId =>
      match ← inspect (Transaction.findLatestSucceeded workspaceId) with
      | none => return none
      | some run =>
          match run.linkage? with
          | some linkage => return some (run, linkage)
          | none => throw (.ingestion .missingLinkage)

end Service

end WorkspaceGraph
