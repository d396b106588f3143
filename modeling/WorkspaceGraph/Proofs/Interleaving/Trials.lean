import WorkspaceGraph.Proofs.Interleaving.Regular
import WorkspaceGraph.Proofs.Interleaving.Replay
/-!
Tries to commit. Before each of them the others may act as they like; what they commit makes a try
lose its number. A try adds the version that comes next, or it leaves nothing behind.
-/

namespace WorkspaceGraph

open Transaction

/-! ## Numbers that are taken -/

namespace Store.Gapless

variable {store earlier : Store} {workspaceId : String}

theorem version?_ne_none (gapless : store.Gapless) (was : earlier.Gapless)
    (grown : earlier.history workspaceId <+: store.history workspaceId)
    (outdated : earlier.head? workspaceId ≠ store.head? workspaceId) {number : Nat}
    (next : Commit.nextNumber (earlier.head? workspaceId) = number) :
    store.version? workspaceId number ≠ none := by
  rw [was.nextNumber] at next
  have shorter := grown.length_le
  have different :
      (earlier.history workspaceId).length ≠ (store.history workspaceId).length := by
    intro same
    rw [was.head, gapless.head, same] at outdated
    exact outdated rfl
  rw [ne_eq, Store.version?_eq_none, gapless.numbers, List.mem_range'_1]
  omega

end Store.Gapless

theorem Commit.execute_outdated {store earlier : Store} {run : Run}
    (found : store.run? run.id = some run) (processing : run.status = .processing)
    (gapless : store.Gapless) (was : earlier.Gapless)
    (grown : earlier.history run.workspaceId <+: store.history run.workspaceId)
    (outdated : earlier.head? run.workspaceId ≠ store.head? run.workspaceId) (now : Instant)
    (snapshot : Snapshot) :
    let seen := earlier.head? run.workspaceId
    (seeing seen now run.id run.workspaceId run.payloadHash snapshot).execute store .none =
      (.error (.versionTaken (some run.workspaceId) (some (nextNumber seen))), store, .none) := by
  intro seen
  let draft := versionDraft run.id run.workspaceId run.payloadHash (nextNumber seen) snapshot
  have lost : (insertVersion draft snapshot).outcome store .none =
      (.error (.versionTaken draft.workspaceId draft.number), .none) := by
    refine outcome_insertVersion_taken fun version row => ?_
    rcases eq_version_of_toVersion row with ⟨number, isNumber, rfl⟩
    exact gapless.version?_ne_none was grown outdated isNumber
  rw [execute_eq, outcome_bind, seeing, (standing_gives found processing).outcome_eq]
  dsimp only
  rw [begin_gives.outcome_eq, after, outcome_bind, lost]
  rfl

/-- The transaction in which a run makes its version adds that and nothing else. -/
theorem Store.committed_commitRun {store : Store} (sound : store.Sound) {run : Run}
    {submission : Submission} (found : store.run? run.id = some run)
    (key : run.key = submission.key) (workspace : run.workspaceId = submission.workspaceId)
    (payload : run.payloadHash = submission.payloadHash) (now : Instant) (number : Nat) :
    submission.Committed ⟨run.id, false, some ⟨.issued store.issued, number⟩, run.attempts⟩ store
      (store.commitRun now run number submission.snapshot)
      (Commit.version (.issued store.issued) run.id run.workspaceId run.payloadHash number
        submission.snapshot)
      (Commit.row now ⟨.issued store.issued, number⟩ run) where
  receipt := rfl
  versions := rfl
  origin := rfl
  workspaceId := workspace
  payloadHash := payload
  projects := rfl
  components := rfl
  edges := rfl
  heads := rfl
  entered := .putRun ((sound.addVersion _).putHead _) found key key
  succeeded := rfl

/-! ## Trials -/

def StoreError.isVersionTaken : StoreError → Bool
  | .versionTaken .. => true
  | _ => false

def Commit.isLost : Except StoreError Commit → Bool
  | .ok _ => false
  | .error error => error.isVersionTaken

structure Round where
  rivals : List Event
  circumstances : Circumstances

structure Trial where
  circumstances : Circumstances
  before : System
  result : Except StoreError Commit
  after : System

namespace Trial

def isLost (trial : Trial) : Bool := Commit.isLost trial.result

structure Fair (trial : Trial) (submission : Submission) (id : RowId) : Prop where
  /-- A try that fails leaves nothing behind. -/
  unwritten : ∀ error, trial.result = .error error → trial.after.store = trial.before.store
  /-- One that goes through adds the version that comes after the head. -/
  written : ∀ made, trial.result = .ok made → ∃ version run, run.id = id ∧
    submission.Committed ⟨made.run, false, some made.linkage, made.attempts⟩ trial.before.store
      trial.after.store version run ∧
    Commit.nextNumber (trial.before.store.head? submission.workspaceId) = version.number
  /-- If no fault strikes, a try is lost to those who have committed since the head was seen. -/
  lost : trial.circumstances.faults = .none →
    trial.before.headBefore trial.circumstances.age submission.workspaceId ≠
      trial.before.store.head? submission.workspaceId → trial.isLost = true
  /-- If nobody has, it goes through. -/
  through : trial.circumstances.faults = .none →
    trial.before.headBefore trial.circumstances.age submission.workspaceId =
      trial.before.store.head? submission.workspaceId → submission.snapshot.Loopless →
    ∃ made, trial.result = .ok made

end Trial

def Worker.commitAfter (worker : Worker) (id : RowId) (seen : Option Head) (now : Instant) :
    Transaction Commit :=
  Commit.seeing seen now id worker.submission.workspaceId worker.submission.payloadHash
    worker.submission.snapshot

namespace System

def committing (system : System) (worker : Worker) (id : RowId) (circumstances : Circumstances) :
    Transaction Commit :=
  worker.commitAfter id (system.headBefore circumstances.age worker.submission.workspaceId)
    circumstances.now

def trial (system : System) (number : Nat) (worker : Worker) (id : RowId)
    (circumstances : Circumstances) : Trial where
  circumstances := circumstances
  before := system
  result := ((system.committing worker id circumstances).execute system.store
    circumstances.faults).1
  after := system.step (.turn number circumstances)

/-- The tries to commit that a worker makes in some rounds. There are no more of them when it has
come to an end. -/
def trials (system : System) (number : Nat) : List Round → List Trial
  | [] => []
  | round :: rest =>
      let before := system.run round.rivals
      match before.workers number with
      | some ⟨limits, submission, .committing id attempt left⟩ =>
          let trial := before.trial number ⟨limits, submission, .committing id attempt left⟩ id
            round.circumstances
          trial :: trial.after.trials number rest
      | _ => []

variable {system : System} {number : Nat} {worker : Worker} {id : RowId} {attempt left : Nat}

theorem trials_cons {round : Round} {rest : List Round}
    (found : (system.run round.rivals).workers number = some worker)
    (stage : worker.stage = .committing id attempt left) :
    let trial := (system.run round.rivals).trial number worker id round.circumstances
    system.trials number (round :: rest) = trial :: trial.after.trials number rest := by
  rcases worker with ⟨limits, submission, now⟩
  cases stage
  simp only [trials, found]

theorem trials_ended {rounds : List Round} (sound : system.store.Sound)
    (found : system.workers number = some worker)
    (ended : ∀ id attempt left, worker.stage ≠ .committing id attempt left)
    (apart : ∀ round ∈ rounds, ∀ event ∈ round.rivals, event.number ≠ number) :
    system.trials number rounds = [] := by
  cases rounds with
  | nil => rfl
  | cons round rest =>
      have others := apart round (List.mem_cons_self ..)
      have still := (workers_run sound round.rivals others).trans found
      rcases worker with ⟨limits, submission, stage⟩
      cases stage with
      | committing id attempt left => exact absurd rfl (ended id attempt left)
      | acquiring | reacquiring | failing | answered | lost => simp only [trials, still]

theorem trial_after (found : system.workers number = some worker)
    (stage : worker.stage = .committing id attempt left) (circumstances : Circumstances) :
    let trial := system.trial number worker id circumstances
    trial.after.workers number =
        some { worker with stage := Worker.afterCommit id attempt left trial.result } ∧
      trial.after.store = ((system.committing worker id circumstances).execute system.store
        circumstances.faults).2.1 := by
  simp [trial, committing, Worker.commitAfter, step, found, afterTurn, Worker.turn, stage,
    place_workers]

section Trying

variable {started : Instant} (circumstances : Circumstances)

/-- With a run that it has acquired, a worker adds the version after the head, or nothing. -/
theorem committing_written (regular : system.store.Regular) (recorded : system.Recorded)
    (stored : system.store.run? id = some (Acquisition.row id attempt started worker.submission)) :
    (∃ error rest, (system.committing worker id circumstances).execute system.store
        circumstances.faults = (.error error, system.store, rest)) ∨
    ∃ made changed rest, (system.committing worker id circumstances).execute system.store
        circumstances.faults = (.ok made, changed, rest) ∧
      ∃ version run, run.id = id ∧ worker.submission.Committed
          ⟨made.run, false, some made.linkage, made.attempts⟩ system.store changed version run ∧
        Commit.nextNumber (system.store.head? worker.submission.workspaceId) = version.number := by
  rcases system.headBefore_eq circumstances.age worker.submission.workspaceId with
    ⟨earlier, member, seen⟩
  have was := recorded.of_mem member
  rcases (Commit.seeing_ensures regular.sound
      (system.headBefore circumstances.age worker.submission.workspaceId) circumstances.now id
      worker.submission.workspaceId worker.submission.payloadHash
      worker.submission.snapshot).execute circumstances.faults with
    ⟨error, rest, equal, -⟩ | ⟨made, changed, rest, equal, outcome⟩
  · exact .inl ⟨error, rest, equal⟩
  · refine .inr ⟨made, changed, rest, equal, ?_⟩
    let run := Acquisition.row id attempt started worker.submission
    have stored : system.store.run? run.id = some run := stored
    cases outcome with
    | done old linkage there succeeded =>
        cases stored.symm.trans there
        cases succeeded
    | made old next there workspace payload processing isNumber free =>
        cases stored.symm.trans there
        have isNext := regular.gapless.number_eq was.1 (was.2 _) (seen ▸ isNumber) free
        refine ⟨_, _, rfl, Store.committed_commitRun regular.sound stored rfl rfl rfl _ next, ?_⟩
        exact (regular.gapless.nextNumber _).trans (congrArg Nat.cast isNext.symm)

/-- Without faults a try is lost to those who have committed since the head was seen. -/
theorem committing_lost (regular : system.store.Regular) (recorded : system.Recorded)
    (stored : system.store.run? id = some (Acquisition.row id attempt started worker.submission))
    (outdated : system.headBefore circumstances.age worker.submission.workspaceId ≠
      system.store.head? worker.submission.workspaceId) :
    ∃ workspaceId version, (system.committing worker id circumstances).execute system.store .none =
      (.error (.versionTaken workspaceId version), system.store, .none) := by
  rcases system.headBefore_eq circumstances.age worker.submission.workspaceId with
    ⟨earlier, member, seen⟩
  have was := recorded.of_mem member
  rw [seen] at outdated
  rw [committing, seen]
  let run := Acquisition.row id attempt started worker.submission
  have stored : system.store.run? run.id = some run := stored
  exact ⟨_, _, Commit.execute_outdated stored rfl regular.gapless was.1 (was.2 _) outdated
    circumstances.now _⟩

theorem committing_through (regular : system.store.Regular)
    (stored : system.store.run? id = some (Acquisition.row id attempt started worker.submission))
    (current : system.headBefore circumstances.age worker.submission.workspaceId =
      system.store.head? worker.submission.workspaceId)
    (loopless : worker.submission.snapshot.Loopless) :
    ∃ made changed, (system.committing worker id circumstances).execute system.store .none =
      (.ok made, changed, .none) := by
  let run := Acquisition.row id attempt started worker.submission
  have stored : system.store.run? run.id = some run := stored
  have executed := (Commit.make_gives regular.sound regular.gapless stored rfl circumstances.now
    loopless).execute
  rw [committing, current, Worker.commitAfter, Commit.execute_seeing]
  exact ⟨_, _, executed⟩

end Trying

theorem trial_fair (reachable : ∃ events, system = after events)
    (found : system.workers number = some worker)
    (stage : worker.stage = .committing id attempt left) (circumstances : Circumstances) :
    (system.trial number worker id circumstances).Fair worker.submission id := by
  rcases reachable with ⟨events, isAfter⟩
  have regular : system.store.Regular := isAfter ▸ regular_after events
  have recorded : system.Recorded := isAfter ▸ recorded_after events
  have owned : system.Owned := isAfter ▸ owned_after events
  rcases owned.rows found (by rw [stage, Stage.attempt?]) with ⟨started, stored⟩
  have after := (trial_after found stage circumstances).2
  have written := committing_written circumstances regular recorded stored
  constructor
  · intro error failed
    rcases written with ⟨other, rest, equal⟩ | ⟨made, changed, rest, equal, -⟩
    · rw [after, equal]
      rfl
    · simp only [trial, equal] at failed
      cases failed
  · intro made committed
    rcases written with ⟨other, rest, equal⟩ | ⟨other, changed, rest, equal, added⟩
    · simp only [trial, equal] at committed
      cases committed
    · simp only [trial, equal] at committed
      cases committed
      rw [after, equal]
      exact added
  · intro calm outdated
    have noFaults : circumstances.faults = .none := calm
    rcases committing_lost circumstances regular recorded stored outdated with
      ⟨workspaceId, version, lost⟩
    simp only [Trial.isLost, trial, noFaults, lost, Commit.isLost, StoreError.isVersionTaken]
  · intro calm current loopless
    have noFaults : circumstances.faults = .none := calm
    rcases committing_through circumstances regular stored current loopless with
      ⟨made, changed, executed⟩
    exact ⟨made, by simp only [trial, noFaults, executed]⟩

end System

end WorkspaceGraph
