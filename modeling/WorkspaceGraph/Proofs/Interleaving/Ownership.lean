import WorkspaceGraph.Proofs.Interleaving.Move
/-!
Who acquired a run has it alone until it is finished. Meanwhile nobody else changes its row, which
is why a commit finds the run as it was left, and why a failure is recorded for the attempt that
failed.
-/

namespace WorkspaceGraph

open Transaction

@[simp] theorem Stage.attempt?_cutOff (stage : Stage) : stage.cutOff.attempt? = none := by
  cases stage <;> rfl

/-! ## What a move does to the runs -/

/-- A move acquires a run that nobody can have at the time, or it leaves things as they are, or it
ends an attempt, in which case it may change the run it was an attempt at. -/
inductive Move.Tenure (worker : Worker) (store : Store) : Stage → Store → Prop
  | begins (id : RowId) (attempt : Nat) (now : Instant) {stage : Stage} {left : Store} :
      stage.attempt? = some (id, attempt) →
      left.run? id = some (Acquisition.row id attempt now worker.submission) →
      (∀ run, store.run? id = some run → run.status = .failed) →
      (∀ other, other ≠ id → left.run? other = store.run? other) →
      Tenure worker store stage left
  | lasts {stage : Stage} : stage.attempt? = worker.stage.attempt? →
      Tenure worker store stage store
  | ends {stage : Stage} {left : Store} : stage.attempt? = none →
      (∀ other, (∀ attempt, worker.stage.attempt? ≠ some (other, attempt)) →
        left.run? other = store.run? other) →
      Tenure worker store stage left

theorem Move.tenure {worker : Worker} {seen : Option Head} {store left : Store} {stage : Stage}
    (move : Move worker seen store stage left) (sound : store.Sound) :
    Tenure worker store stage left := by
  cases move with
  | begun now acquires fresh =>
      refine .begins (.issued store.issued) 1 now rfl (sound.run?_addRun rfl) ?_ fun other ne => ?_
      · intro run found
        have parts := Store.mem_of_run? found
        exact absurd parts.2 (sound.id_ne_issued parts.1)
      · exact Store.run?_addRun_of_ne ne
  | begunAgain now run acquires found same failed =>
      have parts := Store.mem_of_runWithKey? found
      have stored := sound.run?_of_mem parts.1
      have acquired : (store.putRun (Acquisition.row run.id (run.attempts + 1) now
          worker.submission)).run? run.id =
            some (Acquisition.row run.id (run.attempts + 1) now worker.submission) :=
        sound.run?_putRun stored parts.2.symm (Nat.le_add_left 1 _)
      refine .begins run.id (run.attempts + 1) now rfl acquired ?_ fun other ne => ?_
      · intro found again
        rw [stored] at again
        cases again
        exact failed
      · exact Store.run?_putRun_of_ne ne
  | committed now run attempt left number stage found =>
      refine .ends rfl fun other free => ?_
      have different : other ≠ run.id := by
        rintro rfl
        exact free attempt (by rw [stage, Stage.attempt?])
      exact Store.run?_putRun_of_ne different
  | failureRecorded now run attempt error answer stage found =>
      refine .ends rfl fun other free => ?_
      have different : other ≠ run.id := by
        rintro rfl
        exact free attempt (by rw [stage, Stage.attempt?])
      exact Store.run?_putRun_of_ne different
  | numberLost run attempt left stage => exact .lasts (by rw [stage]; rfl)
  | commitFailed run attempt left error stage => exact .lasts (by rw [stage]; rfl)
  | rested => exact .lasts rfl
  | keyLost stage => exact .lasts (by rw [stage]; rfl)
  | replayed | toldToWait | refused | committedBefore | failureDropped =>
      exact .ends rfl fun _ _ => rfl

/-! ## Owners -/

namespace System

/-- Every run that a worker has acquired is as the worker wrote it, and no other worker has it. -/
structure Owned (system : System) : Prop where
  rows : ∀ {number worker id attempt}, system.workers number = some worker →
    worker.stage.attempt? = some (id, attempt) →
    ∃ started, system.store.run? id =
      some (Acquisition.row id attempt started worker.submission)
  alone : ∀ {number other worker otherWorker id attempt otherAttempt},
    system.workers number = some worker → system.workers other = some otherWorker →
    worker.stage.attempt? = some (id, attempt) →
    otherWorker.stage.attempt? = some (id, otherAttempt) → other = number

theorem place_workers (system : System) (number : Nat) (worker : Worker) (other : Nat) :
    (system.place number worker).workers other =
      if other = number then some worker else system.workers other := rfl

namespace Owned

variable {system next : System} {number : Nat}

theorem initial : initial.Owned where
  rows := by simp [System.initial]
  alone := by simp [System.initial]

/-- A worker may take a place if it finds its own run as it wrote it and the others find theirs,
which it does not have. -/
theorem place (owned : system.Owned) {worker : Worker} {store : Store} {past : List Store}
    (own : ∀ {id attempt}, worker.stage.attempt? = some (id, attempt) →
      ∃ started, store.run? id = some (Acquisition.row id attempt started worker.submission))
    (others : ∀ {other otherWorker id attempt}, other ≠ number →
      system.workers other = some otherWorker →
      otherWorker.stage.attempt? = some (id, attempt) →
      store.run? id = system.store.run? id ∧ ∀ own, worker.stage.attempt? ≠ some (id, own)) :
    Owned { system.place number worker with store, past } where
  rows := by
    intro other otherWorker id attempt found holds
    simp only [place_workers] at found
    split at found
    · cases found
      exact own holds
    · rcases owned.rows found holds with ⟨started, row⟩
      exact ⟨started, (others ‹_› found holds).1.trans row⟩
  alone := by
    intro first second firstWorker secondWorker id attempt otherAttempt found otherFound
      holds otherHolds
    simp only [place_workers] at found otherFound
    split at found
    · split at otherFound
      · exact ‹second = number›.trans ‹first = number›.symm
      · cases found
        exact absurd holds ((others ‹_› otherFound otherHolds).2 attempt)
    · split at otherFound
      · cases otherFound
        exact absurd otherHolds ((others ‹_› found holds).2 otherAttempt)
      · exact owned.alone found otherFound holds otherHolds

theorem place_idle (owned : system.Owned) {worker : Worker} (idle : worker.stage.attempt? = none)
    {store : Store} {past : List Store}
    (kept : ∀ {other otherWorker id attempt}, other ≠ number →
      system.workers other = some otherWorker →
      otherWorker.stage.attempt? = some (id, attempt) →
      store.run? id = system.store.run? id) :
    Owned { system.place number worker with store, past } := by
  refine owned.place (fun holds => ?_) fun ne found holds => ⟨kept ne found holds, fun own => ?_⟩
  · rw [idle] at holds
    cases holds
  · simp [idle]

theorem place_same (owned : system.Owned) {worker : Worker}
    (found : system.workers number = some worker) {stage : Stage}
    (same : stage.attempt? = worker.stage.attempt?) {past : List Store} :
    Owned { system.place number { worker with stage } with past } := by
  refine owned.place (fun holds => ?_) fun ne otherFound holds => ⟨rfl, fun attempt has => ne ?_⟩
  · have row := owned.rows found (same.symm.trans holds)
    exact row
  · exact owned.alone found otherFound (same.symm.trans has) holds

theorem place_new (owned : system.Owned) {worker : Worker} {id : RowId} {attempt : Nat}
    {started : Instant} (holds : worker.stage.attempt? = some (id, attempt)) {store : Store}
    {past : List Store}
    (row : store.run? id = some (Acquisition.row id attempt started worker.submission))
    (free : ∀ run, system.store.run? id = some run → run.status = .failed)
    (kept : ∀ other, other ≠ id → store.run? other = system.store.run? other) :
    Owned { system.place number worker with store, past } := by
  refine owned.place (fun {own ownAttempt} has => ?_)
    fun {other otherWorker otherId otherAttempt} ne found otherHolds => ?_
  · rw [holds] at has
    cases has
    exact ⟨started, row⟩
  · -- What is in progress has not failed, so the others do not have this run.
    have different : otherId ≠ id := by
      rintro rfl
      rcases owned.rows found otherHolds with ⟨started, row⟩
      have failed := free _ row
      cases failed
    refine ⟨kept otherId different, fun own has => ?_⟩
    rw [holds] at has
    cases has
    exact different rfl

theorem step (sound : system.store.Sound) (owned : system.Owned)
    (step : Step system number next) : next.Owned := by
  cases step with
  | nothing => exact owned
  | arrived limits submission free => exact owned.place_idle rfl fun _ _ _ => rfl
  | cutOff worker found =>
      exact owned.place_idle (Stage.attempt?_cutOff worker.stage) fun _ _ _ => rfl
  | moved worker earlier stage store found member move =>
      cases move.tenure sound with
      | begins id attempt now holds row free kept => exact owned.place_new holds row free kept
      | lasts same => exact owned.place_same found same
      | ends idle kept =>
          -- Others would share the run that has changed with the worker.
          refine owned.place_idle idle fun {other otherWorker id attempt} ne otherFound holds => ?_
          refine kept id fun ownAttempt own => ne ?_
          exact owned.alone found otherFound own holds

theorem run?_step (sound : system.store.Sound) (owned : system.Owned) {other : Nat}
    (step : Step system other next) (ne : other ≠ number) {worker : Worker}
    (found : system.workers number = some worker) {id : RowId} {attempt : Nat}
    (holds : worker.stage.attempt? = some (id, attempt)) :
    next.store.run? id = system.store.run? id := by
  cases step with
  | nothing | arrived | cutOff => rfl
  | moved otherWorker earlier stage store otherFound member move =>
      cases move.tenure sound with
      | begins otherId otherAttempt now _ _ free kept =>
          refine kept id ?_
          rintro rfl
          rcases owned.rows found holds with ⟨started, row⟩
          have failed := free _ row
          cases failed
      | lasts => rfl
      | ends _ kept =>
          exact kept id fun otherAttempt has => ne (owned.alone found otherFound holds has)

end Owned

theorem workers_step {system next : System} {number other : Nat} (step : Step system other next)
    (ne : other ≠ number) : next.workers number = system.workers number := by
  cases step with
  | nothing => rfl
  | arrived | cutOff | moved => simp [place_workers, ne.symm]

theorem workers_run {system : System} {number : Nat} (sound : system.store.Sound)
    (events : List Event) (others : ∀ event ∈ events, event.number ≠ number) :
    (system.run events).workers number = system.workers number := by
  induction events generalizing system with
  | nil => rfl
  | cons event events induction =>
      have parts := List.forall_mem_cons.mp others
      have step := step_step sound event
      exact (induction (step.sound sound) parts.2).trans (workers_step step parts.1)

theorem owned_after (events : List Event) : (after events).Owned :=
  after_induction Owned Owned.step .initial events

/-- As long as nothing happens to a worker, the run it has acquired does not change. -/
theorem Owned.run?_run {system : System} {number : Nat} (sound : system.store.Sound)
    (owned : system.Owned) {worker : Worker} (found : system.workers number = some worker)
    {id : RowId} {attempt : Nat} (holds : worker.stage.attempt? = some (id, attempt))
    (later : List Event) (others : ∀ event ∈ later, event.number ≠ number) :
    (system.run later).store.run? id = system.store.run? id := by
  induction later generalizing system with
  | nil => rfl
  | cons event later induction =>
      have parts := List.forall_mem_cons.mp others
      have step := step_step sound event
      have still := (workers_step step parts.1).trans found
      have kept := owned.run?_step sound step parts.1 found holds
      exact (induction (step.sound sound) (owned.step sound step) still parts.2).trans kept

/-! ## What owners rely on -/

structure Owns (system : System) (number : Nat) (worker : Worker) (run : Run) : Prop where
  /-- The run is stored as the worker wrote it. -/
  row : system.store.run? run.id = some run
  /-- No other worker has acquired it. -/
  alone : ∀ other otherWorker attempt, system.workers other = some otherWorker →
    otherWorker.stage.attempt? = some (run.id, attempt) → other = number
  /-- Nothing that happens to others changes it. -/
  untouched : ∀ later, (∀ event ∈ later, event.number ≠ number) →
    (system.run later).store.run? run.id = some run
  /-- A commit makes a version of it, unless the number is taken or a fault strikes. -/
  commits : ∀ seen now, Fulfils (Commit.seeing seen now run.id worker.submission.workspaceId
      worker.submission.payloadHash worker.submission.snapshot) system.store
    (fun made left => ∃ number, system.store.version? run.workspaceId number = none ∧
      made = ⟨run.id, ⟨.issued system.store.issued, number⟩, run.attempts⟩ ∧
      left = system.store.commitRun now run number worker.submission.snapshot)
    fun error => ∃ number, error = .versionTaken (some run.workspaceId) (some number)
  /-- A failure is recorded in the row of this very attempt, unless a fault strikes. -/
  fails : ∀ now failure, Fulfils (Failure.save now run.id failure) system.store
    (fun status left => status = .failed ∧ left = system.store.putRun (failure.row now run))
    fun _ => False

theorem Owned.owns {system : System} (sound : system.store.Sound) (owned : system.Owned)
    {number : Nat} {worker : Worker} (found : system.workers number = some worker) {id : RowId}
    {attempt : Nat} (holds : worker.stage.attempt? = some (id, attempt)) :
    ∃ started, system.Owns number worker
      (Acquisition.row id attempt started worker.submission) := by
  rcases owned.rows found holds with ⟨started, row⟩
  refine ⟨started, row, ?_, ?_, ?_, ?_⟩
  · intro other otherWorker otherAttempt otherFound otherHolds
    exact owned.alone found otherFound holds otherHolds
  · intro later others
    exact (owned.run?_run sound found holds later others).trans row
  · intro seen now
    exact (Commit.seeing_processing sound (Acquisition.row id attempt started worker.submission)
      row rfl seen now worker.submission.snapshot).fulfils
  · intro now failure
    exact (Failure.save_processing sound (Acquisition.row id attempt started worker.submission)
      row rfl now failure).fulfils

/-- Whoever is between the acquisition of a run and the end of the attempt is the owner of the run,
however the others act and whichever texts their submissions have in common. -/
theorem attempt_owned (events : List Event) {number : Nat} {worker : Worker} {id : RowId}
    {attempt : Nat} (found : (after events).workers number = some worker)
    (holds : worker.stage.attempt? = some (id, attempt)) :
    ∃ started, (after events).Owns number worker
      (Acquisition.row id attempt started worker.submission) :=
  (owned_after events).owns (sound_after events) found holds

/-- After its first turn the only worker owns the only run. -/
theorem attempt_owned_alone :
    ∃ started, (after [.arrival 0 .standard (.bare "key" "payload"), .turn 0 .calm]).Owns 0
      ⟨.standard, .bare "key" "payload", .committing (.issued 0) 1 4⟩
      (Acquisition.row (.issued 0) 1 started (.bare "key" "payload")) :=
  @attempt_owned _ 0 ⟨.standard, .bare "key" "payload", .committing (.issued 0) 1 4⟩ _ _ rfl rfl

end System

end WorkspaceGraph
