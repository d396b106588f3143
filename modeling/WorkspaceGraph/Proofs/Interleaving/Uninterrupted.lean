import WorkspaceGraph.Proofs.Ingestion.Actions
import WorkspaceGraph.Proofs.Interleaving.System
/-!
The service as it is, which takes a submission to its answer in one go, does the same as a worker
that nobody comes in between.
-/

namespace WorkspaceGraph

namespace Service

def finishWith (commit : Service Commit) (now : Instant) (submission : Submission) (run : RowId) :
    Service Receipt := do
  let made ←
    try commit
    catch error =>
      let failure := Failure.ofError error
      note (about submission (some run) .error
        ("Ingestion failed [" ++ failure.code ++ "]: " ++ failure.message))
      discard (markFailed now run failure)
      throw (answerTo error failure)
  note (about submission (some run) .info
    ("Committed graph version " ++ toString made.linkage.number))
  return ⟨made.run, false, some made.linkage, made.attempts⟩

def giveUp {α : Type} (now : Instant) (run : RowId) (error : StoreError) : Service α := do
  discard (markFailed now run (.ofError error))
  throw (answerTo error (.ofError error))

theorem finish_eq (limits : Limits) (now : Instant) (submission : Submission) (run : RowId) :
    finish limits now submission run =
      finishWith (commit limits now run submission.workspaceId submission.payloadHash
        submission.snapshot) now submission run := rfl

def proceed (limits : Limits) (now : Instant) (submission : Submission) :
    Acquisition → Service Receipt
  | .deduplicated run linkage attempts => do
      note (about submission none .info
        "Deduplicated ingestion of an already committed snapshot")
      return ⟨run, true, some linkage, attempts⟩
  | .inFlight run attempts => do
      note (about submission none .info "Ingestion for this key is still processing")
      return ⟨run, true, none, attempts⟩
  | .acquired run _ => finish limits now submission run

theorem ingestSubmission_eq (limits : Limits) (now : Instant) (submission : Submission) :
    ingestSubmission limits now submission =
      acquire now submission >>= proceed limits now submission := by
  rw [ingestSubmission]
  congr 1

theorem outcome_acquire_eq (now : Instant) (submission : Submission) (world : World) :
    (acquire now submission).outcome world =
      match (transact (Acquisition.make now submission)).outcome world with
      | (.ok acquisition, left) => (.ok acquisition, left)
      | (.error (.keyTaken _), left) =>
          (transact (Acquisition.make now submission)).outcome
            { left with log := left.log ++ [lostKey submission.key] }
      | (.error error, left) => (.error error, left) := by
  rw [acquire, outcome_tryCatch]
  rcases (transact (Acquisition.make now submission)).outcome world with ⟨error | found, left⟩
  · cases error <;> rfl
  · rfl

theorem outcome_giveUp {α : Type} (now : Instant) (run : RowId) (error : StoreError)
    (world : World) :
    (giveUp now run error : Service α).outcome world =
      let (result, store, faults) :=
        (Failure.save now run (.ofError error)).execute world.store world.faults
      (.error (match result with
        | .ok _ => answerTo error (.ofError error)
        | .error other => other), { world with store, faults }) := by
  rw [giveUp, outcome_discard, markFailed, outcome_transact]
  rcases (Failure.save now run (.ofError error)).execute world.store world.faults with
    ⟨other | status, store, faults⟩
  · rfl
  · rfl

theorem outcome_commitFrom (commit : Transaction Commit) (lost : Option Int → Nat → Log.Entry)
    (tried left : Nat) (world : World) :
    (commitFrom commit lost tried left).outcome world =
      match (transact commit).outcome world, left with
      | (.error (.versionTaken _ version), last), left + 1 =>
          (commitFrom commit lost (tried + 1) left).outcome
            { last with log := last.log ++ [lost version tried] }
      | (result, last), _ => (result, last) := by
  cases left with
  | zero =>
      rw [commitFrom]
      rcases (transact commit).outcome world with ⟨error | made, last⟩
      · cases error <;> rfl
      · rfl
  | succ left =>
      rw [commitFrom, outcome_tryCatch]
      rcases (transact commit).outcome world with ⟨error | made, last⟩
      · cases error <;> rfl
      · rfl

theorem outcome_finishWith_ok {commit : Service Commit} {world left : World} {made : Commit}
    (committed : commit.outcome world = (.ok made, left)) (now : Instant)
    (submission : Submission) (run : RowId) :
    ∃ log, (finishWith commit now submission run).outcome world =
      (.ok ⟨made.run, false, some made.linkage, made.attempts⟩, { left with log }) := by
  rw [finishWith, outcome_bind, outcome_tryCatch, committed]
  exact ⟨_, rfl⟩

theorem outcome_finishWith_error {commit : Service Commit} {world left : World}
    {error : StoreError} (failed : commit.outcome world = (.error error, left)) (now : Instant)
    (submission : Submission) (run : RowId) :
    ∃ log, (finishWith commit now submission run).outcome world =
      (giveUp now run error).outcome { left with log } := by
  refine ⟨left.log ++ [about submission (some run) .error ("Ingestion failed [" ++
    (Failure.ofError error).code ++ "]: " ++ (Failure.ofError error).message)], ?_⟩
  have gaveUp := outcome_giveUp (α := Commit) now run error
  simp only [giveUp] at gaveUp
  rw [outcome_giveUp, finishWith, outcome_bind, outcome_tryCatch, failed]
  simp only [outcome_bind, outcome_note, gaveUp]

theorem outcome_finishWith_congr {commit other : Service Commit} {world elsewhere : World}
    (same : commit.outcome world = other.outcome elsewhere) (now : Instant)
    (submission : Submission) (run : RowId) :
    (finishWith commit now submission run).outcome world =
      (finishWith other now submission run).outcome elsewhere := by
  simp only [finishWith, outcome_bind, outcome_tryCatch, same]

end Service

/-- A worker that finds a store comes to an answer by turns of its own at the given time, and
leaves a store, as the result says. -/
def Worker.Finishes (worker : Worker) (now : Instant) (store : Store)
    (result : Except StoreError Receipt × World) : Prop :=
  ∀ (system : System) (number : Nat), system.workers number = some worker → system.store = store →
    ∃ turns : List Circumstances, (∀ turn ∈ turns, turn.now = now) ∧
      let final := system.run (turns.map (Event.turn number))
      final.store = result.2.store ∧
        final.workers number = some { worker with stage := .answered result.1 }

def Worker.commit (worker : Worker) (now : Instant) (run : RowId) : Transaction Commit :=
  Commit.make now run worker.submission.workspaceId worker.submission.payloadHash
    worker.submission.snapshot

theorem Worker.turn_committing {worker : Worker} {run : RowId} {attempt left : Nat}
    (stage : worker.stage = .committing run attempt left) (now : Instant) (world : World) :
    worker.turn ⟨now, world.faults, 0⟩ (world.store.head? worker.submission.workspaceId)
        world.store =
      let (result, store, _) := (worker.commit now run).execute world.store world.faults
      (afterCommit run attempt left result, store) := by
  simp only [turn, stage, Commit.execute_seeing, commit]

theorem Worker.turn_acquiring (worker : Worker) (isFirst : Bool)
    (stage : worker.stage = if isFirst then .acquiring else .reacquiring) (now : Instant)
    (world : World) :
    worker.turn ⟨now, world.faults, 0⟩ (world.store.head? worker.submission.workspaceId)
        world.store =
      (worker.afterAcquisition isFirst
          ((Acquisition.make now worker.submission).execute world.store world.faults).1,
        ((Acquisition.make now worker.submission).execute world.store world.faults).2.1) := by
  cases isFirst with
  | false => simp only [turn, stage, Bool.false_eq_true, if_false]
  | true => simp only [turn, stage, if_true]

theorem System.step_of_turn {system : System} {number : Nat} {worker : Worker}
    (found : system.workers number = some worker) {now : Instant} {faults : Faults}
    {stage : Stage} {store : Store}
    (turned : worker.turn ⟨now, faults, 0⟩ (system.store.head? worker.submission.workspaceId)
      system.store = (stage, store)) :
    system.step (.turn number ⟨now, faults, 0⟩) =
      { system.place number { worker with stage } with
        store, past := system.store :: system.past } := by
  have seen : system.headBefore 0 worker.submission.workspaceId =
      system.store.head? worker.submission.workspaceId := rfl
  simp only [step, found, afterTurn, seen, turned]

namespace Worker.Finishes

variable {worker : Worker} {now : Instant} {store changed : Store}
  {result : Except StoreError Receipt × World}

theorem answered (stage : worker.stage = .answered result.1) (same : store = result.2.store) :
    worker.Finishes now store result := by
  intro system number found isStore
  refine ⟨[], by simp, isStore.trans same, ?_⟩
  rw [← stage]
  exact found

theorem turn {faults : Faults} {stage : Stage}
    (turn : worker.turn ⟨now, faults, 0⟩ (store.head? worker.submission.workspaceId) store =
      (stage, changed))
    (rest : Finishes { worker with stage } now changed result) :
    worker.Finishes now store result := by
  intro system number found isStore
  subst isStore
  have next := System.step_of_turn found turn
  rcases rest (system.step (.turn number ⟨now, faults, 0⟩)) number
    (by simp [next, System.place]) (by rw [next]) with ⟨turns, moments, final⟩
  exact ⟨⟨now, faults, 0⟩ :: turns, List.forall_mem_cons.mpr ⟨rfl, moments⟩, final⟩

theorem failing {run : RowId} {attempt : Nat} {error : StoreError}
    (stage : worker.stage = .failing run attempt error) (now : Instant) (world : World) :
    worker.Finishes now world.store
      ((Service.giveUp now run error : Service Receipt).outcome world) := by
  rw [Service.outcome_giveUp]
  have turn : ∀ seen, worker.turn ⟨now, world.faults, 0⟩ seen world.store =
      let (result, store, _) :=
        (Failure.save now run (.ofError error)).execute world.store world.faults
      (Worker.afterFailure error result, store) := by
    intro seen
    simp only [Worker.turn, stage]
  generalize (Failure.save now run (.ofError error)).execute world.store world.faults = result
    at turn ⊢
  rcases result with ⟨other | status, store, faults⟩
  · exact .turn (turn _) (.answered rfl rfl)
  · exact .turn (turn _) (.answered rfl rfl)

theorem of_committed {commit : Service Commit} {run : RowId} {world left : World}
    {made : Commit} (committed : commit.outcome world = (.ok made, left))
    (turned : worker.turn ⟨now, world.faults, 0⟩ (world.store.head? worker.submission.workspaceId)
      world.store =
        (.answered (.ok ⟨made.run, false, some made.linkage, made.attempts⟩), left.store)) :
    worker.Finishes now world.store
      ((Service.finishWith commit now worker.submission run).outcome world) := by
  rcases Service.outcome_finishWith_ok committed now worker.submission run with ⟨log, finished⟩
  rw [finished]
  exact .turn turned (.answered rfl rfl)

theorem of_failed {commit : Service Commit} {run : RowId} {attempt : Nat} {world left : World}
    {error : StoreError} (failed : commit.outcome world = (.error error, left))
    (turned : worker.turn ⟨now, world.faults, 0⟩ (world.store.head? worker.submission.workspaceId)
      world.store = (.failing run attempt error, left.store)) :
    worker.Finishes now world.store
      ((Service.finishWith commit now worker.submission run).outcome world) := by
  rcases Service.outcome_finishWith_error failed now worker.submission run with ⟨log, gaveUp⟩
  rw [gaveUp]
  exact .turn turned (failing rfl now { left with log })

theorem trying {worker : Worker} {run : RowId} {attempt left : Nat} {now : Instant}
    {lost : Option Int → Nat → Log.Entry}
    (stage : worker.stage = .committing run attempt left)
    (rest : ∀ fewer, left = fewer + 1 → ∀ tried world,
      Finishes { worker with stage := .committing run attempt fewer } now world.store
        ((Service.finishWith (Service.commitFrom (worker.commit now run) lost tried fewer) now
          worker.submission run).outcome world)) (tried : Nat) (world : World) :
    worker.Finishes now world.store
      ((Service.finishWith (Service.commitFrom (worker.commit now run) lost tried left) now
        worker.submission run).outcome world) := by
  have turned := worker.turn_committing stage now world
  have outcome := Service.outcome_commitFrom (worker.commit now run) lost tried left world
  rw [Service.outcome_transact] at outcome
  generalize (worker.commit now run).execute world.store world.faults = result at turned outcome
  rcases result with ⟨error | made, store, faults⟩
  · cases error with
    | versionTaken workspaceId version =>
        cases left with
        | zero => exact of_failed outcome turned
        | succ fewer =>
            rw [Service.outcome_finishWith_congr outcome]
            exact .turn turned (rest fewer rfl (tried + 1)
              ⟨store, faults, world.log ++ [lost version tried]⟩)
    | _ => exact of_failed outcome turned
  · exact of_committed outcome turned

theorem committing (worker : Worker) {run : RowId} {attempt left : Nat}
    (stage : worker.stage = .committing run attempt left) (now : Instant)
    (lost : Option Int → Nat → Log.Entry) (tried : Nat) (world : World) :
    worker.Finishes now world.store
      ((Service.finishWith (Service.commitFrom (worker.commit now run) lost tried left) now
        worker.submission run).outcome world) := by
  -- By induction on the tries that are left; the worker has as many left as the service.
  induction left generalizing worker tried world with
  | zero => exact trying stage (fun fewer equal => by cases equal) tried world
  | succ left induction =>
      refine trying stage (fun fewer equal => ?_) tried world
      cases equal
      exact induction { worker with stage := .committing run attempt left } rfl

theorem resuming {acquisition : Acquisition} (stage : worker.stage = worker.resume acquisition)
    (now : Instant) (world : World) :
    worker.Finishes now world.store
      ((Service.proceed worker.limits now worker.submission acquisition).outcome world) := by
  cases acquisition with
  | acquired run attempt =>
      rw [Service.proceed, Service.finish_eq]
      exact committing worker stage now _ 1 world
  | deduplicated run linkage attempts => exact .answered stage rfl
  | inFlight run attempts => exact .answered stage rfl

theorem reacquiring (worker : Worker) (stage : worker.stage = .reacquiring) (now : Instant)
    (world : World) :
    worker.Finishes now world.store
      ((Service.transact (Acquisition.make now worker.submission) >>=
        Service.proceed worker.limits now worker.submission).outcome world) := by
  have turned := worker.turn_acquiring false stage now world
  rw [Service.outcome_bind, Service.outcome_transact]
  generalize (Acquisition.make now worker.submission).execute world.store world.faults = result
    at turned ⊢
  rcases result with ⟨error | acquisition, store, faults⟩
  · refine .turn turned (.answered ?_ rfl)
    cases error <;> rfl
  · exact .turn turned (resuming rfl now ⟨store, faults, world.log⟩)

theorem acquiring (worker : Worker) (stage : worker.stage = .acquiring) (now : Instant)
    (world : World) :
    worker.Finishes now world.store
      ((Service.ingestSubmission worker.limits now worker.submission).outcome world) := by
  have turned := worker.turn_acquiring true stage now world
  rw [Service.ingestSubmission_eq, Service.outcome_bind, Service.outcome_acquire_eq,
    Service.outcome_transact]
  generalize (Acquisition.make now worker.submission).execute world.store world.faults = result
    at turned ⊢
  rcases result with ⟨error | acquisition, store, faults⟩
  · cases error with
    | keyTaken key =>
        have rest := reacquiring { worker with stage := .reacquiring } rfl now
          ⟨store, faults, world.log ++ [Service.lostKey worker.submission.key]⟩
        rw [Service.outcome_bind] at rest
        exact .turn turned rest
    | _ => exact .turn turned (.answered rfl rfl)
  · exact .turn turned (resuming rfl now ⟨store, faults, world.log⟩)

end Worker.Finishes

/-- Whatever comes of a submission that the service takes through in one go can come of one that
arrives in a system, if only its own worker has turns from then on, all of them at that time. -/
theorem System.run_turns (system : System) {number : Nat} (free : system.workers number = none)
    (limits : Limits) (now : Instant) (submission : Submission) (faults : Faults)
    (log : List Log.Entry) :
    ∃ turns : List Circumstances, (∀ turn ∈ turns, turn.now = now) ∧
      let result := (Service.ingestSubmission limits now submission).outcome
        ⟨system.store, faults, log⟩
      let final := system.run (.arrival number limits submission :: turns.map (Event.turn number))
      final.store = result.2.store ∧
        final.workers number = some ⟨limits, submission, .answered result.1⟩ := by
  have finishes := Worker.Finishes.acquiring (.start limits submission) rfl now
    ⟨system.store, faults, log⟩
  have arrived : system.step (.arrival number limits submission) =
      system.place number (.start limits submission) := by
    simp only [step, free]
  rcases finishes (system.step (.arrival number limits submission)) number
    (by simp [arrived, place]) (by rw [arrived, place]) with ⟨turns, moments, final⟩
  exact ⟨turns, moments, final⟩

end WorkspaceGraph
