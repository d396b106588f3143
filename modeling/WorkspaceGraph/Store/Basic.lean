import WorkspaceGraph.Ingestion.Decision
import WorkspaceGraph.Instant
import WorkspaceGraph.Store.RowId
import WorkspaceGraph.Submission.Request
/-!
The store: what is known of runs, the versions of every workspace's graph, and for every workspace
the number of its latest version. Rows stand in the order in which they were inserted.
-/

namespace WorkspaceGraph

structure Counts where
  projects : Int
  libraries : Int
  components : Int
  edges : Int
deriving DecidableEq, Repr

def Counts.ofSummary (summary : Snapshot.Summary) : Counts :=
  ⟨summary.projects, summary.libraries, summary.components, summary.edges⟩

/-- One key and what became of it. A run that succeeded names the version it made; one that failed
tells why. -/
structure Run where
  id : RowId
  key : String
  payloadHash : String
  workspaceId : String
  scanner : Request.Scanner
  trigger : Trigger
  status : RunStatus
  attempts : Nat
  counts : Counts
  origin : Json
  versionId : Option RowId
  versionNumber : Option Int
  errorCode : Option String
  errorMessage : Option String
  startedAt : Instant
  completedAt : Option Instant
deriving Repr

structure Version where
  id : RowId
  workspaceId : String
  number : Nat
  runId : RowId
  payloadHash : String
  schemaVersion : Int
  configPath : String
  counts : Counts
  projects : List Snapshot.ProjectNode
  components : List Snapshot.ComponentNode
  edges : List Snapshot.Edge
deriving DecidableEq, Repr

structure Head where
  workspaceId : String
  latest : Int
deriving DecidableEq, Repr

structure Store where
  runs : List Run
  versions : List Version
  heads : List Head
  /-- The number of ids issued so far. -/
  issued : Nat
deriving Repr

namespace Store

def empty : Store := ⟨[], [], [], 0⟩

/-! ## Looking up -/

def run? (store : Store) (id : RowId) : Option Run := store.runs.find? fun run => run.id = id

def runWithKey? (store : Store) (key : String) : Option Run :=
  store.runs.find? fun run => run.key = key

def head? (store : Store) (workspaceId : String) : Option Head :=
  store.heads.find? fun head => head.workspaceId = workspaceId

def version? (store : Store) (workspaceId : String) (number : Nat) : Option Version :=
  store.versions.find? fun version =>
    version.workspaceId = workspaceId && version.number = number

def insertNumber (number : Nat) : List Nat → List Nat
  | [] => [number]
  | next :: rest =>
      if number ≤ next then number :: next :: rest else next :: insertNumber number rest

def versionNumbers (store : Store) (workspaceId : String) : List Nat :=
  ((store.versions.filter fun version => version.workspaceId = workspaceId).map (·.number)).foldr
    insertNumber []

/-- Whether a version number is greater than another; none is the least. Databases differ in where
they put none, but only runs that succeeded are compared, and those have a number. -/
def numberAfter : Option Int → Option Int → Bool
  | some number, some other => other < number
  | some _, none => true
  | none, _ => false

/-- Whether a run comes before another when the latest stands first: it started later, or at the
same moment and made a higher version. -/
def isLater (run other : Run) : Bool :=
  other.startedAt.microseconds < run.startedAt.microseconds ||
    (run.startedAt = other.startedAt && numberAfter run.versionNumber other.versionNumber)

/-- The latest of some runs. Of runs that are equally late the last counts. -/
def latestOf : List Run → Option Run
  | [] => none
  | run :: rest =>
      match latestOf rest with
      | none => some run
      | some other => if isLater run other then some run else some other

def latestSucceeded? (store : Store) (workspaceId : String) : Option Run :=
  latestOf (store.runs.filter fun run =>
    run.workspaceId = workspaceId && run.status = .succeeded)

end Store

end WorkspaceGraph
