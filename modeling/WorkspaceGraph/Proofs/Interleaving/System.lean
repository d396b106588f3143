import WorkspaceGraph.Ingestion.Service
import WorkspaceGraph.Proofs.Ingestion.Outcomes
/-!
Many submissions at a time. Every submission that has come in has a worker, which takes it through
the service one transaction after another; between two transactions of a worker, the others may
take any number of theirs.

A transaction is at one with the store as it finds it, with two exceptions. A lookup of a run by
its key may miss, and the head of a workspace may be seen as it was at any earlier moment.
-/

namespace WorkspaceGraph

inductive Stage
  | acquiring
  /-- It is to acquire its key again, having lost it to another one. -/
  | reacquiring
  /-- It has acquired a run, as the given attempt, which is to be committed. When the coming try is
  lost, there are so many left. -/
  | committing (run : RowId) (attempt : Nat) (left : Nat)
  /-- It could not commit the run. That is to be recorded. -/
  | failing (run : RowId) (attempt : Nat) (error : StoreError)
  | answered (answer : Except StoreError Receipt)
  | lost
deriving Repr

namespace Stage

def attempt? : Stage → Option (RowId × Nat)
  | committing run attempt _ | failing run attempt _ => some (run, attempt)
  | acquiring | reacquiring | answered _ | lost => none

/-- What is left of a worker that is cut off. An answer that was given stands. -/
def cutOff : Stage → Stage
  | answered answer => answered answer
  | _ => lost

end Stage

structure Worker where
  limits : Limits
  submission : Submission
  stage : Stage
deriving Repr

/-- What a transaction meets with: the time, what goes wrong, and how many changes ago the head was
as it is seen. -/
structure Circumstances where
  now : Instant
  faults : Faults
  age : Nat

def Circumstances.calm : Circumstances := ⟨⟨0⟩, .none, 0⟩

def Submission.bare (key payloadHash : String) : Submission where
  key := key
  workspaceId := "workspace"
  trigger := .manual
  scanner := ⟨"scanner", none⟩
  origin := none
  snapshot := ⟨"workspace.json", [], [], [], []⟩
  payloadHash := payloadHash

namespace Worker

def start (limits : Limits) (submission : Submission) : Worker := ⟨limits, submission, .acquiring⟩

def resume (worker : Worker) : Acquisition → Stage
  | .acquired run attempt => .committing run attempt (worker.limits.attempts - 1)
  | .deduplicated run linkage attempts => .answered (.ok ⟨run, true, some linkage, attempts⟩)
  | .inFlight run attempts => .answered (.ok ⟨run, true, none, attempts⟩)

/-- How it goes on after the key was to be acquired. The first time a key that was taken meanwhile
is no reason to give up. -/
def afterAcquisition (worker : Worker) (isFirst : Bool) :
    Except StoreError Acquisition → Stage
  | .ok acquisition => worker.resume acquisition
  | .error (.keyTaken key) =>
      if isFirst then .reacquiring else .answered (.error (.keyTaken key))
  | .error error => .answered (.error error)

/-- How it goes on after a try to commit. A lost number is tried again, as long as there are tries
left. -/
def afterCommit (run : RowId) (attempt : Nat) (left : Nat) : Except StoreError Commit → Stage
  | .ok made => .answered (.ok ⟨made.run, false, some made.linkage, made.attempts⟩)
  | .error (.versionTaken workspaceId version) =>
      match left with
      | 0 => .failing run attempt (.versionTaken workspaceId version)
      | left + 1 => .committing run attempt left
  | .error error => .failing run attempt error

def afterFailure (error : StoreError) : Except StoreError RunStatus → Stage
  | .ok _ => .answered (.error (Service.answerTo error (.ofError error)))
  | .error other => .answered (.error other)

def turn (worker : Worker) (circumstances : Circumstances) (seen : Option Head) (store : Store) :
    Stage × Store :=
  let ⟨now, faults, _⟩ := circumstances
  let submission := worker.submission
  match worker.stage with
  | .acquiring =>
      let (result, store, _) := (Acquisition.make now submission).execute store faults
      (worker.afterAcquisition true result, store)
  | .reacquiring =>
      let (result, store, _) := (Acquisition.make now submission).execute store faults
      (worker.afterAcquisition false result, store)
  | .committing run attempt left =>
      let commit := Commit.seeing seen now run submission.workspaceId submission.payloadHash
        submission.snapshot
      let (result, store, _) := commit.execute store faults
      (afterCommit run attempt left result, store)
  | .failing run _ error =>
      let (result, store, _) := ((Failure.ofError error).save now run).execute store faults
      (afterFailure error result, store)
  | .answered answer => (.answered answer, store)
  | .lost => (.lost, store)

end Worker

/-! ## The system -/

/-- The store with all the workers on it, and the states in which it was before, the latest
first. -/
structure System where
  store : Store
  past : List Store
  workers : Nat → Option Worker

inductive Event
  | arrival (number : Nat) (limits : Limits) (submission : Submission)
  | turn (number : Nat) (circumstances : Circumstances)
  | loss (number : Nat)

def Event.number : Event → Nat
  | arrival number .. | turn number _ | loss number => number

namespace System

def initial : System := ⟨.empty, [], fun _ => none⟩

def place (system : System) (number : Nat) (worker : Worker) : System :=
  { system with
    workers := fun other => if other = number then some worker else system.workers other }

def headBefore (system : System) (age : Nat) (workspaceId : String) : Option Head :=
  (((system.store :: system.past)[age]?).getD system.store).head? workspaceId

def afterTurn (system : System) (number : Nat) (worker : Worker)
    (circumstances : Circumstances) : System :=
  let seen := system.headBefore circumstances.age worker.submission.workspaceId
  let (stage, store) := worker.turn circumstances seen system.store
  { system.place number { worker with stage } with
    store, past := system.store :: system.past }

/-- The system after an event. A number that is taken is not given to another submission. -/
def step (system : System) : Event → System
  | .arrival number limits submission =>
      match system.workers number with
      | none => system.place number (.start limits submission)
      | some _ => system
  | .turn number circumstances =>
      match system.workers number with
      | none => system
      | some worker => system.afterTurn number worker circumstances
  | .loss number =>
      match system.workers number with
      | none => system
      | some worker => system.place number { worker with stage := worker.stage.cutOff }

def run (system : System) (events : List Event) : System := events.foldl step system

def after (events : List Event) : System := initial.run events

end System

end WorkspaceGraph
