import WorkspaceGraph.Proofs.Ingestion.Calm
import WorkspaceGraph.Proofs.Interleaving.Lifecycle
/-!
Races for a key. Whoever misses the run of its key fails to insert another one, looks again and then
gets what it had got if it had come that much later: of the race nothing remains.
-/

namespace WorkspaceGraph

open Transaction

/-! ## Coming upon a run -/

namespace Acquisition

inductive Upon (now : Instant) (submission : Submission) (run : Run) (store : Store) :
    Except StoreError Acquisition → Store → Prop
  | refused : run.payloadHash ≠ submission.payloadHash →
      Upon now submission run store (.error (.ingestion .keyReused)) store
  | inFlight : run.payloadHash = submission.payloadHash → run.status = .processing →
      Upon now submission run store (.ok (.inFlight run.id run.attempts)) store
  | deduplicated (linkage : Linkage) : run.payloadHash = submission.payloadHash →
      run.status = .succeeded → run.linkage? = some linkage →
      Upon now submission run store (.ok (.deduplicated run.id linkage run.attempts)) store
  | again : run.payloadHash = submission.payloadHash → run.status = .failed →
      Upon now submission run store (.ok (.acquired run.id (run.attempts + 1)))
        (store.putRun (row run.id (run.attempts + 1) now submission))

/-- The key has no other run than before, and all that was written is in its row. -/
structure Alone (key : String) (run : Run) (store left : Store) : Prop where
  only : (left.runs.filter fun row => row.key = key).map Run.id = [run.id]
  others : ∀ row, row.key ≠ key → (row ∈ left.runs ↔ row ∈ store.runs)
  versions : left.versions = store.versions
  heads : left.heads = store.heads

variable {now : Instant} {submission : Submission} {run : Run} {store left : Store}
  {result : Except StoreError Acquisition}

theorem Alone.of_sound (sound : store.Sound)
    (found : store.runWithKey? submission.key = some run) :
    Alone submission.key run store store where
  only := by
    have only := Store.filter_eq_toList_find? Run.key sound.keys submission.key
    rw [only, ← Store.runWithKey?, found]
    rfl
  others := fun _ _ => .rfl
  versions := rfl
  heads := rfl

theorem Upon.alone (upon : Upon now submission run store result left) (sound : store.Sound)
    (found : store.runWithKey? submission.key = some run) :
    Alone submission.key run store left := by
  have kept := Alone.of_sound sound found
  cases upon with
  | refused | inFlight | deduplicated => exact kept
  | again same failed =>
      have parts := Store.mem_of_runWithKey? found
      let changed := row run.id (run.attempts + 1) now submission
      have stored : store.run? changed.id = some run := sound.run?_of_mem parts.1
      have put : (store.putRun changed).Sound :=
        sound.putRun stored parts.2.symm (Nat.le_add_left 1 _)
      have member : changed ∈ (store.putRun changed).runs :=
        (Store.mem_putRun stored).mpr (.inl rfl)
      have only := (Alone.of_sound put (put.runWithKey?_of_mem member)).only
      refine ⟨only, fun other apart => ?_, rfl, rfl⟩
      refine (Store.mem_putRun stored).trans ⟨?_, fun inside => .inr ⟨inside, fun same => ?_⟩⟩
      · rintro (rfl | ⟨inside, -⟩)
        · exact absurd rfl apart
        · exact inside
      · rw [sound.eq_of_id inside parts.1 same] at apart
        exact apart parts.2

theorem exists_upon (sound : store.Sound) (linked : store.Linked) (now : Instant)
    (found : store.runWithKey? submission.key = some run) :
    ∃ result left, Upon now submission run store result left ∧
      (make now submission).execute store (.missing 0) = (result, left, .missing 0) := by
  by_cases same : run.payloadHash = submission.payloadHash
  · cases status : run.status with
    | processing =>
        exact ⟨_, _, .inFlight same status,
          (make_gives sound (.inFlight run found same status)).execute⟩
    | failed =>
        exact ⟨_, _, .again same status,
          (make_gives sound (.again run found same status)).execute⟩
    | succeeded =>
        have named := linked.linkage?_ne_none (Store.mem_of_runWithKey? found).1 status
        rcases Option.ne_none_iff_exists'.mp named with ⟨linkage, names⟩
        exact ⟨_, _, .deduplicated linkage same status names,
          (make_gives sound (.deduplicated run linkage found same status names)).execute⟩
  · exact ⟨_, _, .refused same, execute_refused found same⟩

theorem Upon.afterAcquisition_eq (upon : Upon now submission run store result left)
    (worker : Worker) (isFirst : Bool) :
    worker.afterAcquisition isFirst result = worker.afterAcquisition true result := by
  cases upon <;> rfl

end Acquisition

/-! ## In one go -/

variable {now : Instant} {submission : Submission} {run : Run} {store : Store}

/-- Missing the run once makes no difference but to the log. -/
theorem Service.outcome_acquire_missing (sound : store.Sound) (linked : store.Linked)
    (now : Instant) (found : store.runWithKey? submission.key = some run) (log : List Log.Entry) :
    ∃ result left, Acquisition.Upon now submission run store result left ∧
      (acquire now submission).outcome ⟨store, .missing 0, log⟩ =
        (result, ⟨left, .missing 0, log⟩) ∧
      (acquire now submission).outcome ⟨store, .missing 1, log⟩ =
        (result, ⟨left, .missing 0, log ++ [lostKey submission.key]⟩) := by
  rcases Acquisition.exists_upon sound linked now found with ⟨result, left, upon, executed⟩
  have missed := Acquisition.execute_missing now 0 found
  refine ⟨result, left, upon, ?_, ?_⟩
  · rw [outcome_acquire_eq, outcome_transact, executed]
    cases upon <;> rfl
  · simp only [outcome_acquire_eq, outcome_transact, missed, executed]

/-! ## With others in between -/

theorem Worker.turn_upon (worker : Worker) (sound : store.Sound) (linked : store.Linked)
    (now : Instant) (age : Nat)
    (found : store.runWithKey? worker.submission.key = some run) :
    ∃ result left, Acquisition.Upon now worker.submission run store result left ∧
      ∀ stage, stage = .acquiring ∨ stage = .reacquiring → ∀ seen,
        Worker.turn { worker with stage } ⟨now, .missing 0, age⟩ seen store =
          (worker.afterAcquisition true result, left) := by
  rcases Acquisition.exists_upon sound linked now found with ⟨result, left, upon, executed⟩
  refine ⟨result, left, upon, ?_⟩
  rintro stage (rfl | rfl) seen
  · simp only [turn, executed]
    rfl
  · simp only [turn, executed]
    exact congrArg (·, left) (upon.afterAcquisition_eq worker false)

namespace System

variable {system : System} {number : Nat} {worker : Worker} {submission : Submission} {run : Run}

/-- A worker that has missed the run and one that has come only now come to the same. -/
theorem step_reacquiring (sound : system.store.Sound) (linked : system.store.Linked)
    (stage : worker.stage = .acquiring)
    (waiting : system.workers number = some { worker with stage := .reacquiring })
    (found : system.store.runWithKey? worker.submission.key = some run) (now : Instant)
    (age : Nat) :
    let event := Event.turn number ⟨now, .missing 0, age⟩
    let next := system.step event
    next = (system.place number worker).step event ∧
    ∃ result, Acquisition.Upon now worker.submission run system.store result next.store ∧
      next.workers number = some { worker with stage := worker.afterAcquisition true result } := by
  intro event next
  rcases worker.turn_upon sound linked now age found with ⟨result, left, upon, turned⟩
  have again := turned .reacquiring (.inr rfl)
  have first : ∀ seen, worker.turn ⟨now, .missing 0, age⟩ seen (system.place number worker).store =
      (worker.afterAcquisition true result, left) := turned worker.stage (.inl stage)
  have came := step_turn waiting again
  refine ⟨?_, result, ?_, came.2⟩
  · have placed : (system.place number worker).workers number = some worker := by
      simp [place_workers]
    have overwritten : ∀ other, (system.place number worker).place number other =
        system.place number other := by
      intro other
      simp only [place]
      congr 1
      funext one
      split <;> rfl
    simp only [next, event, step, waiting, placed, afterTurn, again, first]
    rw [overwritten]
    rfl
  · rw [came.1]
    exact upon

structure Overtaken (system : System) (submission : Submission) (run : Run) : Prop where
  /-- In one go it gets what it had got if it had not missed the run, and leaves the same store. -/
  atOnce : ∀ now log, ∃ result left,
    Acquisition.Upon now submission run system.store result left ∧
    Acquisition.Alone submission.key run system.store left ∧
    (Service.acquire now submission).outcome ⟨system.store, .missing 0, log⟩ =
      (result, ⟨left, .missing 0, log⟩) ∧
    (Service.acquire now submission).outcome ⟨system.store, .missing 1, log⟩ =
      (result, ⟨left, .missing 0, log ++ [Service.lostKey submission.key]⟩)
  /-- If others come in between, it comes upon the run as they left it. From then on the system is
  the one in which the submission has come in only after them. -/
  later : ∀ number worker now age, system.workers number = some worker →
    worker.stage = .acquiring → worker.submission = submission →
    let lost := system.step (.turn number ⟨now, .missing 1, age⟩)
    lost.store = system.store ∧ ∀ between, (∀ event ∈ between, event.number ≠ number) →
      let late := lost.run between
      ∃ met, late.store.runWithKey? submission.key = some met ∧ met.Continues run ∧
        ∀ now age,
          let event := Event.turn number ⟨now, .missing 0, age⟩
          let next := late.step event
          next = (late.place number worker).step event ∧
          ∃ result, Acquisition.Upon now submission met late.store result next.store ∧
            Acquisition.Alone submission.key met late.store next.store ∧
            next.workers number =
              some { worker with stage := worker.afterAcquisition true result }

/-- Losing the race for a key is the same as arriving late. -/
theorem acquire_overtaken (events : List Event) (submission : Submission) {run : Run}
    (taken : (after events).store.runWithKey? submission.key = some run) :
    (after events).Overtaken submission run := by
  have sound := sound_after events
  constructor
  · intro now log
    rcases Service.outcome_acquire_missing sound (linked_after events) now taken log with
      ⟨result, left, upon, seen, missed⟩
    exact ⟨result, left, upon, upon.alone sound taken, seen, missed⟩
  · rintro number worker now age found stage rfl lost
    have missed := step_turn found (worker.turn_missing stage taken now 0 age)
    refine ⟨missed.1, fun between others => ?_⟩
    intro late
    let missing := Event.turn number ⟨now, .missing 1, age⟩
    -- To have missed the run is an event like others, so the system remains a reachable one.
    have reached : late = after (events ++ missing :: between) :=
      run_after events (missing :: between)
    have lateSound : late.store.Sound := reached ▸ sound_after _
    have lateLinked : late.store.Linked := reached ▸ linked_after _
    have waiting : late.workers number = some { worker with stage := .reacquiring } :=
      (workers_run (sound_run sound [missing]) between others).trans missed.2
    have parts := Store.mem_of_runWithKey? taken
    rcases continues_run sound (owned_after events) parts.1 (missing :: between) with
      ⟨met, member, continues⟩
    have stored : late.store.runWithKey? worker.submission.key = some met := by
      rw [← parts.2, ← continues.key]
      exact lateSound.runWithKey?_of_mem member
    refine ⟨met, stored, continues, fun now age => ?_⟩
    rcases step_reacquiring lateSound lateLinked stage waiting stored now age with
      ⟨same, result, upon, came⟩
    exact ⟨same, result, upon, upon.alone lateSound stored, came⟩

/-- The second of two submissions of a key misses the run that the first one has inserted. -/
theorem acquire_overtaken_second :
    (after [.arrival 0 .standard (.bare "key" "payload"),
      .arrival 1 .standard (.bare "key" "payload"), .turn 0 .calm]).Overtaken
        (.bare "key" "payload")
        (Acquisition.row (.issued 0) 1 ⟨0⟩ (.bare "key" "payload")) :=
  acquire_overtaken _ _ rfl

end System

end WorkspaceGraph
