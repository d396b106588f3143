import Mathlib.Data.List.Induction
import WorkspaceGraph.Proofs.Ingestion.Constraints
import WorkspaceGraph.Proofs.Interleaving.Keeping
/-!
The constraints of the tables are kept at all times by those who submit what was prepared within the
usual limits. So whatever passes for a lost race is one, unless it was feigned.
-/

namespace WorkspaceGraph

open Database Transaction

theorem Move.fits {worker : Worker} {earlier store left : Store} {stage : Stage}
    (move : Move worker (earlier.head? worker.submission.workspaceId) store stage left)
    (fits : store.Fits) (sound : store.Sound) (was : earlier.Gapless)
    (brought : worker.submission.Fits) : left.Fits := by
  cases move with
  | begun now => exact fits.addRun (Acquisition.row_fits brought _ (Nat.le_refl 1) now)
  | begunAgain now run acquires found =>
      have stored := sound.run?_of_mem (Store.mem_of_runWithKey? found).1
      exact fits.putRun stored (Acquisition.row_fits brought _ (Nat.le_add_left 1 _) now)
  | committed now run attempt left number stage found workspace payload processing next =>
      -- The number may be stale, but it follows that of some head there was.
      rw [was.nextNumber] at next
      have positive : 1 ≤ number := by omega
      exact fits.commitRun found positive brought.loopless now
  | failureRecorded now run attempt error answer stage found =>
      have runFits := fits.runs run (Store.mem_of_run? found).1
      exact fits.putRun found (Failure.row_fits runFits now error)
  | replayed | toldToWait | keyLost | refused | committedBefore | numberLost | commitFailed
  | failureDropped | rested => exact fits

namespace Worker

theorem key_of_reacquiring {worker : Worker} {isFirst : Bool}
    {result : Except StoreError Acquisition}
    (again : worker.afterAcquisition isFirst result = .reacquiring) :
    ∃ key, result = .error (.keyTaken key) := by
  cases result with
  | ok acquisition => cases acquisition with
    | acquired | deduplicated | inFlight => cases again
  | error error => cases error with
    | keyTaken key => exact ⟨key, rfl⟩
    | ingestion | versionTaken | constraint | database | workspace | unforeseen => cases again

theorem version_of_committing {run other : RowId} {attempt left number fewer : Nat}
    {result : Except StoreError Commit}
    (again : afterCommit run attempt left result = .committing other number fewer) :
    ∃ workspaceId version, result = .error (.versionTaken workspaceId version) := by
  cases result with
  | ok made => cases again
  | error error => cases error with
    | versionTaken workspaceId version => exact ⟨workspaceId, version, rfl⟩
    | ingestion | keyTaken | constraint | database | workspace | unforeseen => cases again

end Worker

namespace System

theorem arrival_of_worker (events : List Event) {number : Nat} {worker : Worker}
    (found : (after events).workers number = some worker) :
    ∃ limits, Event.arrival number limits worker.submission ∈ events := by
  induction events using List.reverseRecOn generalizing worker with
  | nil => cases found
  | append_singleton events event induction =>
      rw [← run_after] at found
      rcases worker_of_step found with ⟨stage, was⟩ | ⟨limits, rfl⟩
      · rcases induction was with ⟨limits, member⟩
        exact ⟨limits, List.mem_append_left _ member⟩
      · exact ⟨limits, List.mem_append_right _ (List.mem_singleton.mpr rfl)⟩

def Brought (system : System) : Prop :=
  ∀ number worker, system.workers number = some worker → worker.submission.Fits

theorem Brought.before {system next : System} {number : Nat} (brought : next.Brought)
    (step : Step system number next) : system.Brought := by
  intro other worker found
  rcases step.worker_stays found with ⟨stage, stays, -⟩
  exact brought other { worker with stage } stays

theorem fits_after (events : List Event) (brought : (after events).Brought) :
    (after events).store.Fits := by
  -- Whoever has brought something stays, so what is asked of everybody at the end held before.
  apply (after_induction
    (fun system => system.Recorded ∧ (system.Brought → system.store.Fits)) _ _ events).2 brought
  · intro system number next sound holds step
    constructor
    · exact (holds.1.step step).1
    · intro brought
      have before := brought.before step
      cases step with
      | nothing | arrived | cutOff => exact holds.2 before
      | moved worker earlier stage store found member move =>
          exact move.fits (holds.2 before) sound (holds.1.of_mem member).1
            (before number worker found)
  · exact ⟨.initial, fun _ => .empty⟩

/-! ## What a submission writes -/

/-- Whatever the submission writes keeps the constraints, and each of its insertions is refused only
if what has to be unique is taken. -/
structure Writes (system : System) (submission : Submission) : Prop where
  keys : ∀ now, Table.runs.Clashes system.store.runRows
    (Acquisition.row (.issued system.store.issued) 1 now submission).row ↔
      system.store.HasKey submission.key
  first : ∀ now, Inserts (insertRun (Acquisition.first now submission)) system.store
    (system.store.HasKey submission.key) (.keyTaken (some submission.key))
    (Acquisition.row (.issued system.store.issued) 1 now submission)
    (system.store.addRun (Acquisition.row (.issued system.store.issued) 1 now submission))
  another : ∀ now, ∀ run ∈ system.store.runs, run.key = submission.key →
    Changes (patchRun run.id (Acquisition.another now submission (run.attempts + 1))) system.store
      (Acquisition.row run.id (run.attempts + 1) now submission)
  commit : ∀ now, ∀ run ∈ system.store.runs, ∀ earlier ∈ system.store :: system.past,
    ∃ number : Nat, Commit.nextNumber (earlier.head? submission.workspaceId) = number ∧
      Commit.Writes system.store submission now run number
  failure : ∀ now, ∀ run ∈ system.store.runs, ∀ error,
    Changes (patchRun run.id ((Failure.ofError error).mark now)) system.store
      ((Failure.ofError error).row now run)

theorem writes {system : System} {submission : Submission} (recorded : system.Recorded)
    (sound : system.store.Sound) (fits : system.store.Fits) (brought : submission.Fits) :
    system.Writes submission where
  keys := fun _ => Store.clashes_run
  first := insertRun_inserts fits brought
  another := by
    intro now run member key
    apply patchRun_changes fits (sound.run?_of_mem member)
    · exact Acquisition.toRun_another run.id now key (Nat.le_add_left 1 _)
    · rfl
    · exact key.symm
    · exact Acquisition.row_fits brought _ (Nat.le_add_left 1 _) now
  commit := by
    intro now run member earlier earlierMember
    have next := (recorded.of_mem earlierMember).1.nextNumber submission.workspaceId
    exact ⟨_, next, Commit.writes fits brought now (sound.run?_of_mem member)
      (Nat.le_add_left 1 _)⟩
  failure := by
    intro now run member error
    have runFits := fits.runs run member
    apply patchRun_changes fits (sound.run?_of_mem member)
    · exact Failure.toRun_mark now _ runFits.attempts
    · rfl
    · rfl
    · exact Failure.row_fits runFits now error

/-! ## Lost races -/

/-- Nothing passes for a lost race of the submission, and is tried again, but what is one or is
feigned. -/
structure Races (system : System) (submission : Submission) : Prop where
  key : ∀ now faults key,
    ((Acquisition.make now submission).execute system.store faults).1 = .error (.keyTaken key) →
      faults.FeignKey ∨ system.store.HasKey submission.key
  version : ∀ earlier ∈ system.store :: system.past, ∀ number : Nat,
    Commit.nextNumber (earlier.head? submission.workspaceId) = number →
    ∀ now id faults workspaceId version,
      ((Commit.seeing (earlier.head? submission.workspaceId) now id submission.workspaceId
        submission.payloadHash submission.snapshot).execute system.store faults).1 =
          .error (.versionTaken workspaceId version) →
        faults.FeignVersion ∨ system.store.HasVersion submission.workspaceId number
  reacquired : ∀ worker : Worker, worker.submission = submission → worker.stage = .acquiring →
    ∀ circumstances seen, (worker.turn circumstances seen system.store).1 = .reacquiring →
      circumstances.faults.FeignKey ∨ system.store.HasKey submission.key
  triedAgain : ∀ worker : Worker, worker.submission = submission →
    ∀ earlier ∈ system.store :: system.past, ∀ number : Nat,
    Commit.nextNumber (earlier.head? submission.workspaceId) = number →
    ∀ run attempt left fewer, worker.stage = .committing run attempt left → ∀ circumstances,
      (worker.turn circumstances (earlier.head? submission.workspaceId) system.store).1 =
        .committing run attempt fewer →
      circumstances.faults.FeignVersion ∨ system.store.HasVersion submission.workspaceId number

theorem races {system : System} {submission : Submission} (recorded : system.Recorded)
    (sound : system.store.Sound) (loopless : submission.snapshot.Loopless) :
    system.Races submission := by
  have key : ∀ now faults key,
      ((Acquisition.make now submission).execute system.store faults).1 = .error (.keyTaken key) →
        faults.FeignKey ∨ system.store.HasKey submission.key :=
    fun _ _ _ lost => Acquisition.execute_make_lost sound lost
  have version : ∀ earlier ∈ system.store :: system.past, ∀ number : Nat,
      Commit.nextNumber (earlier.head? submission.workspaceId) = number →
      ∀ now id faults workspaceId version,
        ((Commit.seeing (earlier.head? submission.workspaceId) now id submission.workspaceId
          submission.payloadHash submission.snapshot).execute system.store faults).1 =
            .error (.versionTaken workspaceId version) →
          faults.FeignVersion ∨ system.store.HasVersion submission.workspaceId number := by
    intro earlier member number next now id faults workspaceId version lost
    have positive : 1 ≤ number := by
      rw [(recorded.of_mem member).1.nextNumber] at next
      omega
    exact Commit.execute_seeing_lost sound loopless next positive lost
  constructor
  · exact key
  · exact version
  · intro worker isOf stage circumstances seen again
    rw [Worker.turn, stage, isOf] at again
    rcases Worker.key_of_reacquiring again with ⟨lost, failed⟩
    exact key _ _ lost failed
  · intro worker isOf earlier member number next run attempt left fewer stage circumstances again
    rw [Worker.turn, stage, isOf] at again
    rcases Worker.version_of_committing again with ⟨workspaceId, lost, failed⟩
    exact version earlier member number next _ _ _ workspaceId lost failed

/-- At all times, if whoever has come in has submitted what was prepared of a request, the tables
admit all their rows, and so they do with whatever is written next. So an insertion is refused only
if what has to be unique is taken, and nothing else passes for a lost race. -/
theorem constraints_kept (events : List Event)
    (prepared : ∀ number limits submission, .arrival number limits submission ∈ events →
      ∃ request, Submission.prepare .standard request = .ok submission) :
    (after events).store.Lawful ∧
    ∀ request submission, Submission.prepare .standard request = .ok submission →
      (after events).Writes submission ∧ (after events).Races submission := by
  have brought : (after events).Brought := by
    intro number worker found
    rcases arrival_of_worker events found with ⟨limits, member⟩
    rcases prepared number limits worker.submission member with ⟨request, made⟩
    exact Submission.fits_of_prepare made
  have fits := fits_after events brought
  have recorded := recorded_after events
  have sound := sound_after events
  constructor
  · exact fits.lawful
  · intro request submission made
    have room := Submission.fits_of_prepare made
    exact ⟨writes recorded sound fits room, races recorded sound room.loopless⟩

theorem constraints_kept_pairTree : ∃ submission,
    Submission.prepare .standard Scan.pairRequest = .ok submission ∧
    (after (once .standard submission)).store.Lawful ∧
    (after (once .standard submission)).Writes submission ∧
    (after (once .standard submission)).Races submission := by
  have prepared : ∃ submission, Submission.prepare .standard Scan.pairRequest = .ok submission :=
    ⟨_, rfl⟩
  rcases prepared with ⟨submission, prepared⟩
  have kept := constraints_kept (once .standard submission) (by
    intro number limits other member
    simp only [once, calmTurn, List.cons_append, List.nil_append, List.mem_cons,
      List.not_mem_nil, reduceCtorEq, or_false, Event.arrival.injEq] at member
    exact ⟨Scan.pairRequest, member.2.2 ▸ prepared⟩)
  exact ⟨submission, prepared, kept.1, kept.2 Scan.pairRequest submission prepared⟩

end System

end WorkspaceGraph
