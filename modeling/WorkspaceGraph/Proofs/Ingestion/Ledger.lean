import WorkspaceGraph.Proofs.Api.Submissions
import WorkspaceGraph.Proofs.Ingestion.Calm
/-!
Ingestion as one step of a ledger, in which every key has a line and every workspace a number. A
submission that is taken through alone, and with which nothing goes wrong, makes one entry in it,
or none.
-/

namespace WorkspaceGraph

/-! ## Ledgers -/

namespace Ledger

structure Line where
  status : RunStatus
  payloadHash : String
  attempts : Nat
  /-- The number of the version that was made. -/
  version : Option Int
deriving DecidableEq, Repr

structure Reply where
  status : RunStatus
  deduplicated : Bool
  version : Option Int
  attempts : Nat
deriving DecidableEq, Repr

end Ledger

@[ext]
structure Ledger where
  line? : String → Option Ledger.Line
  /-- The number of the latest version of a workspace; zero, if it has none. -/
  head : String → Int

namespace Ledger

def commit (ledger : Ledger) (submission : Submission) (attempts : Nat) : Ledger where
  line? key :=
    if key = submission.key then
      some ⟨.succeeded, submission.payloadHash, attempts, some (ledger.head submission.workspaceId + 1)⟩
    else ledger.line? key
  head workspaceId :=
    if workspaceId = submission.workspaceId then ledger.head workspaceId + 1
    else ledger.head workspaceId

def made (ledger : Ledger) (submission : Submission) (attempts : Nat) : Reply :=
  ⟨.succeeded, false, some (ledger.head submission.workspaceId + 1), attempts⟩

def submit (ledger : Ledger) (submission : Submission) : Except StoreError Reply × Ledger :=
  match ledger.line? submission.key with
  | none => (.ok (ledger.made submission 1), ledger.commit submission 1)
  | some line =>
      if line.payloadHash = submission.payloadHash then
        match line.status with
        | .failed =>
            (.ok (ledger.made submission (line.attempts + 1)),
              ledger.commit submission (line.attempts + 1))
        | .succeeded => (.ok ⟨.succeeded, true, line.version, line.attempts⟩, ledger)
        | .processing => (.ok ⟨.processing, true, none, line.attempts⟩, ledger)
      else (.error (.ingestion .keyReused), ledger)

end Ledger

def Run.line (run : Run) : Ledger.Line :=
  ⟨run.status, run.payloadHash, run.attempts, run.versionNumber⟩

def Receipt.reply (receipt : Receipt) : Ledger.Reply :=
  ⟨receipt.status, receipt.deduplicated, receipt.linkage.map Linkage.number, receipt.attempts⟩

def Store.ledger (store : Store) : Ledger where
  line? key := (store.runWithKey? key).map Run.line
  head workspaceId := ((store.head? workspaceId).map Head.latest).getD 0

theorem Run.versionNumber_of_linkage? {run : Run} {linkage : Linkage}
    (names : run.linkage? = some linkage) : run.versionNumber = some linkage.number := by
  rw [Run.linkage?] at names
  split at names
  · cases names
    assumption
  · cases names

theorem Store.line?_ledger {store : Store} {key : String} {run : Run}
    (found : store.runWithKey? key = some run) : store.ledger.line? key = some run.line := by
  simp [ledger, found]

/-! ## Committed submissions -/

/-- The row tells of the attempt a submission has made, and of nothing before it. -/
structure Run.Renewed (run : Run) (submission : Submission) (now : Instant) : Prop where
  payloadHash : run.payloadHash = submission.payloadHash
  workspaceId : run.workspaceId = submission.workspaceId
  scanner : run.scanner = submission.scanner
  trigger : run.trigger = submission.trigger
  origin : run.origin = (submission.origin.map Request.Origin.knownJson).getD .null
  counts : run.counts = .ofSummary submission.snapshot.summary
  errorCode : run.errorCode = none
  errorMessage : run.errorMessage = none
  startedAt : run.startedAt = now
  completedAt : run.completedAt = some now

theorem Run.Renewed.row (id : RowId) (attempts : Nat) (now : Instant) (submission : Submission)
    (linkage : Linkage) :
    (Commit.row now linkage (Acquisition.row id attempts now submission)).Renewed submission now :=
  ⟨rfl, rfl, rfl, rfl, rfl, rfl, rfl, rfl, rfl, rfl⟩

namespace Submission

variable {submission : Submission} {store left : Store}

theorem Committed.ledger {receipt : Receipt} {version : Version} {run : Run}
    (committed : submission.Committed receipt store left version run)
    (next : (version.number : Int) = store.ledger.head submission.workspaceId + 1)
    (row : run.line = ⟨.succeeded, submission.payloadHash, receipt.attempts, some version.number⟩) :
    left.ledger = store.ledger.commit submission receipt.attempts := by
  refine Ledger.ext (funext fun key => ?_) (funext fun workspaceId => ?_)
  · have found := Store.find?_enterRun run store.runs key
    rw [← committed.entered.isEntered, committed.entered.isOfKey] at found
    simp only [Store.ledger, Store.runWithKey?, Ledger.commit, found]
    split
    · simp [row, next, Store.ledger]
    · rfl
  · have same : left.head? workspaceId =
        (store.putHead ⟨version.workspaceId, version.number⟩).head? workspaceId := by
      rw [Store.head?, committed.heads, Store.head?, Store.putHead]
    rw [Store.head?_putHead, committed.workspaceId] at same
    simp only [Store.ledger, Ledger.commit, same]
    split
    · subst workspaceId
      simp [next, Store.ledger]
    · rfl

/-- What a submission came to is one step of the ledger. Whatever is told was written by it or is
on record. -/
structure Resolved (submission : Submission) (now : Instant) (before : Store)
    (result : Except StoreError Receipt) (after : Store) : Prop where
  step : (result.map Receipt.reply, after.ledger) = before.ledger.submit submission
  made : ∀ receipt, result = .ok receipt → receipt.deduplicated = false →
    ∃ version run, submission.Committed receipt before after version run ∧
      run.Renewed submission now
  found : ∀ receipt, result = .ok receipt → receipt.deduplicated = true →
    after = before ∧ ∃ run, before.runWithKey? submission.key = some run ∧
      receipt = ⟨run.id, true, run.linkage?, run.attempts⟩
  refused : ∀ error, result = .error error → after = before ∧ error = .ingestion .keyReused

theorem submit_of_outcome {now : Instant} {id : RowId} {attempts : Nat}
    (outcome : Acquisition.Outcome now submission store (.acquired id attempts) left) :
    store.ledger.submit submission =
      (.ok (store.ledger.made submission attempts), store.ledger.commit submission attempts) := by
  cases outcome with
  | first fresh =>
      have line : store.ledger.line? submission.key = none := by simp [Store.ledger, fresh]
      rw [Ledger.submit, line]
  | again run found same failed =>
      rw [Ledger.submit, Store.line?_ledger found]
      simp [Run.line, same, failed]

namespace Resolved

variable {now : Instant}

theorem of_committed {receipt : Receipt} {version : Version} {run : Run}
    (committed : submission.Committed receipt store left version run)
    (renewed : run.Renewed submission now)
    (step : (.ok receipt.reply, left.ledger) = store.ledger.submit submission) :
    submission.Resolved now store (.ok receipt) left where
  step := step
  made := by
    intro told isTold _
    cases isTold
    exact ⟨version, run, committed, renewed⟩
  found := by
    intro told isTold found
    cases isTold
    rw [committed.receipt] at found
    cases found
  refused := by
    intro error isError
    cases isError

theorem of_found {run : Run} (found : store.runWithKey? submission.key = some run)
    (step : (.ok (Receipt.reply ⟨run.id, true, run.linkage?, run.attempts⟩), store.ledger) =
      store.ledger.submit submission) :
    submission.Resolved now store (.ok ⟨run.id, true, run.linkage?, run.attempts⟩) store where
  step := step
  made := by
    intro told isTold made
    cases isTold
    cases made
  found := by
    intro told isTold _
    cases isTold
    exact ⟨rfl, run, found, rfl⟩
  refused := by
    intro error isError
    cases isError

theorem of_refused
    (step : (.error (.ingestion .keyReused), store.ledger) = store.ledger.submit submission) :
    submission.Resolved now store (.error (.ingestion .keyReused)) store where
  step := step
  made := by
    intro told isTold
    cases isTold
  found := by
    intro told isTold
    cases isTold
  refused := by
    intro error isError
    cases isError
    exact ⟨rfl, rfl⟩

end Resolved

theorem resolved_of_served {now : Instant} {result : Except StoreError Receipt}
    (served : Service.Served now submission store result left) (sound : store.Sound)
    (linked : store.Linked) (gapless : store.Gapless) :
    submission.Resolved now store result left := by
  cases served with
  | committed id attempts middle outcome =>
      have begun := Run.Acquired.of_outcome sound outcome
      have committed := begun.committed now ((store.history submission.workspaceId).length + 1)
      have next : (((store.history submission.workspaceId).length + 1 : Nat) : Int) =
          store.ledger.head submission.workspaceId + 1 :=
        (gapless.nextNumber submission.workspaceId).symm
      refine .of_committed committed (.row id attempts now submission _) ?_
      rw [submit_of_outcome outcome, committed.ledger next rfl]
      simp only [Receipt.reply, Receipt.status, Ledger.made, Option.map_some, next]
      rfl
  | replayed run linkage found same succeeded names =>
      rw [← names]
      refine .of_found found ?_
      rw [Ledger.submit, Store.line?_ledger found]
      simp [Run.line, same, succeeded, Receipt.reply, Receipt.status, names,
        Run.versionNumber_of_linkage? names]
  | toldToWait run found same processing =>
      have unfinished := linked.unfinished run (Store.mem_of_runWithKey? found).1
        (by simp [processing])
      have names : run.linkage? = none := by rw [Run.linkage?, unfinished.2.1]
      rw [← names]
      refine .of_found found ?_
      rw [Ledger.submit, Store.line?_ledger found]
      simp [Run.line, same, processing, Receipt.reply, Receipt.status, names]
  | refused run found different =>
      refine .of_refused ?_
      rw [Ledger.submit, Store.line?_ledger found]
      simp [Run.line, different]

end Submission

/-! ## Submissions to the system -/

theorem Submission.Resolved.status {submission : Submission} {now : Instant}
    {before after : Store} {result : Except StoreError Receipt}
    (resolved : submission.Resolved now before result after) :
    (Api.answerOf result).status ∈ [200, 202, 409] := by
  cases result with
  | ok receipt =>
      simp only [Api.answerOf]
      split <;> simp
  | error error =>
      rw [(resolved.refused error rfl).2]
      decide

/-- Whatever has happened before, a request in order that is ingested alone, and with which
nothing goes wrong, is one step of the ledger. It never fails, and it is refused only if its key
belongs to another payload. -/
theorem System.ingest_atomic (events : List Event) {limits : Limits} {request : Request}
    {submission : Submission} (prepared : Submission.prepare limits request = .ok submission)
    (now : Instant) :
    let before := (System.after events).store
    ∃ result after,
      Service.Comes (Service.ingest limits now request) before result after ∧
      submission.Resolved now before result after ∧
      (∀ call : Api.Call, call.Submits → call.submission? limits = some submission →
        ∀ log, ∃ noted, Api.respond limits now call ⟨before, .none, log⟩ =
          (Api.answerOf result, ⟨after, .none, noted⟩)) ∧
      (Api.answerOf result).status ∈ [200, 202, 409] := by
  intro before
  have sound := sound_after events
  have linked := linked_after events
  have gapless := (recorded_after events).gapless
  have loopless := Submission.loopless_of_prepare prepared
  rcases Service.ingestSubmission_served sound linked gapless limits now loopless with
    ⟨result, after, served, comes⟩
  have resolved := Submission.resolved_of_served served sound linked gapless
  refine ⟨result, after, fun log => ?_, resolved, fun call submits brought log => ?_,
    resolved.status⟩
  · rw [Service.ingest, Service.outcome_bind, Service.prepare, prepared]
    exact comes log
  · rcases comes log with ⟨noted, came⟩
    exact Api.respond_submission submits brought now came

def Request.bare (key : String) : Request where
  key := key
  workspaceId := "workspace"
  trigger := .manual
  scanner := ⟨"scanner", none⟩
  origin := none
  snapshot := ⟨"workspace.json", [], [], [], []⟩

/-- The first attempt has failed, because the database did. -/
theorem System.ingest_atomic_retried :
    ∃ submission, Submission.prepare .standard (.bare " key") = .ok submission ∧
      let faults := { Faults.none with version := some (.database none) }
      let before := (System.after [.arrival 0 .standard submission, .turn 0 .calm,
        .turn 0 ⟨⟨1⟩, faults, 0⟩, .turn 0 .calm]).store
      ∃ result after,
        Service.Comes (Service.ingest .standard ⟨2⟩ (.bare " key")) before result after ∧
        submission.Resolved ⟨2⟩ before result after ∧
        (∀ call : Api.Call, call.Submits → call.submission? .standard = some submission →
          ∀ log, ∃ noted, Api.respond .standard ⟨2⟩ call ⟨before, .none, log⟩ =
            (Api.answerOf result, ⟨after, .none, noted⟩)) ∧
        (Api.answerOf result).status ∈ [200, 202, 409] := by
  have prepared : ∃ submission, Submission.prepare .standard (.bare " key") = .ok submission :=
    ⟨_, rfl⟩
  rcases prepared with ⟨submission, prepared⟩
  exact ⟨submission, prepared, ingest_atomic _ prepared ⟨2⟩⟩

end WorkspaceGraph
