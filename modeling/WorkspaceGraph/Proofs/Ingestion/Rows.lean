import WorkspaceGraph.Ingestion.Commit
/-!
The rows that the drafts of an ingestion become. They break no constraint, apart from a version
with a number below one or with an edge from a project to itself.
-/

namespace WorkspaceGraph

@[simp] theorem RunStatus.ofText?_text (status : RunStatus) :
    RunStatus.ofText? status.text = some status := by
  cases status <;> rfl

@[simp] theorem Trigger.ofText?_text (trigger : Trigger) :
    Trigger.ofText? trigger.text = some trigger := by
  cases trigger <;> rfl

theorem RunDraft.attempts?_of_pos {attempts : Nat} (positive : 1 ≤ attempts) :
    RunDraft.attempts? attempts = some attempts := by
  have atLeastOne : (1 : Int) ≤ attempts := by omega
  simp [RunDraft.attempts?, atLeastOne]

namespace Draft

variable {α : Type} (column : String)

@[simp] theorem present_some (value : α) : present column (some value) = .ok value := rfl

@[simp] theorem passing_some (value : α) : passing column (some value) = .ok value := rfl

end Draft

/-! ## Runs -/

namespace Acquisition

/-- The row of an attempt that has just begun. Nothing in it is left of earlier attempts but the
id and their number. -/
def row (id : RowId) (attempts : Nat) (now : Instant) (submission : Submission) : Run where
  id := id
  key := submission.key
  payloadHash := submission.payloadHash
  workspaceId := submission.workspaceId
  scanner := submission.scanner
  trigger := submission.trigger
  status := .processing
  attempts := attempts
  counts := .ofSummary submission.snapshot.summary
  origin := (submission.origin.map Request.Origin.knownJson).getD .null
  versionId := none
  versionNumber := none
  errorCode := none
  errorMessage := none
  startedAt := now
  completedAt := none

theorem toRun_first (id : RowId) (now : Instant) (submission : Submission) :
    (first now submission).withDefaults.toRun id = .ok (row id 1 now submission) := by
  simp [first, begin, blank, RunDraft.withDefaults, RunDraft.toRun, bind, Except.bind, row,
    Counts.ofSummary, RunDraft.attempts?]

theorem toRun_another {run : Run} {submission : Submission} (id : RowId) (now : Instant)
    (key : run.key = submission.key) {attempts : Nat} (positive : 1 ≤ attempts) :
    (another now submission attempts (RunDraft.ofRun run)).toRun id =
      .ok (row id attempts now submission) := by
  simp [another, begin, RunDraft.ofRun, RunDraft.toRun, bind, Except.bind, row,
    Counts.ofSummary, key, RunDraft.attempts?_of_pos positive]

end Acquisition

def Commit.row (now : Instant) (linkage : Linkage) (run : Run) : Run :=
  { run with
    status := .succeeded
    versionId := some linkage.version
    versionNumber := some linkage.number
    errorCode := none
    errorMessage := none
    completedAt := some now }

theorem Commit.toRun_succeed {run : Run} (now : Instant) (linkage : Linkage)
    (positive : 1 ≤ run.attempts) :
    (succeed now linkage (RunDraft.ofRun run)).toRun run.id = .ok (row now linkage run) := by
  simp [succeed, RunDraft.ofRun, RunDraft.toRun, bind, Except.bind, row,
    RunDraft.attempts?_of_pos positive]

def Failure.row (now : Instant) (failure : Failure) (run : Run) : Run :=
  { run with
    status := .failed
    errorCode := some failure.code
    errorMessage := some failure.message
    completedAt := some now }

theorem Failure.toRun_mark {run : Run} (now : Instant) (failure : Failure)
    (positive : 1 ≤ run.attempts) :
    (failure.mark now (RunDraft.ofRun run)).toRun run.id = .ok (failure.row now run) := by
  simp [mark, RunDraft.ofRun, RunDraft.toRun, bind, Except.bind, row,
    RunDraft.attempts?_of_pos positive]

/-! ## Versions -/

namespace Commit

def version (id run : RowId) (workspaceId payloadHash : String) (number : Nat)
    (snapshot : Snapshot) : Version where
  id := id
  workspaceId := workspaceId
  number := number
  runId := run
  payloadHash := payloadHash
  schemaVersion := Snapshot.schemaVersion
  configPath := snapshot.workspaceConfigPath
  counts := .ofSummary snapshot.summary
  projects := snapshot.projects
  components := snapshot.components
  edges := snapshot.edges

theorem eq_version_of_toVersion {id run : RowId} {workspaceId payloadHash : String} {number : Int}
    {snapshot : Snapshot} {made : Version}
    (row : (versionDraft run workspaceId payloadHash number snapshot).toVersion id snapshot =
      .ok made) :
    ∃ count : Nat, number = count ∧
      made = version id run workspaceId payloadHash count snapshot := by
  simp only [versionDraft, VersionDraft.toVersion, Draft.present_some, bind, Except.bind] at row
  rw [VersionDraft.number?, VersionDraft.edges?] at row
  by_cases positive : 1 ≤ number
  · rw [if_pos positive] at row
    split at row
    · cases row
    · rename_i count isCount
      cases isCount
      split at row
      · cases row
      · rename_i edges isEdges
        cases row
        refine ⟨number.toNat, by omega, ?_⟩
        split at isEdges
        · cases isEdges
          rfl
        · cases isEdges
  · rw [if_neg positive] at row
    cases row

theorem toVersion_versionDraft {id run : RowId} {workspaceId payloadHash : String} {number : Nat}
    {snapshot : Snapshot} (positive : 1 ≤ number)
    (loopless : ∀ edge ∈ snapshot.edges, edge.source ≠ edge.target) :
    (versionDraft run workspaceId payloadHash number snapshot).toVersion id snapshot =
      .ok (version id run workspaceId payloadHash number snapshot) := by
  have atLeastOne : (1 : Int) ≤ number := by omega
  have passed : (snapshot.edges.all fun edge => edge.source != edge.target) = true := by
    simpa using loopless
  simp [versionDraft, VersionDraft.toVersion, bind, Except.bind, VersionDraft.number?,
    VersionDraft.edges?, atLeastOne, passed, version, Counts.ofSummary]

end Commit

end WorkspaceGraph
