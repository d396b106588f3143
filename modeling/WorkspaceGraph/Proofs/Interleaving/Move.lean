import WorkspaceGraph.Proofs.Interleaving.System
/-!
All that can happen. A turn of a worker comes to one of the moves below, and an event to one of the
four steps after them; whatever holds of the system is shown by going through these.
-/

namespace WorkspaceGraph

/-! ## Moves of a worker -/

def Worker.Acquires (worker : Worker) : Prop :=
  worker.stage = .acquiring ∨ worker.stage = .reacquiring

inductive Move (worker : Worker) (seen : Option Head) (store : Store) : Stage → Store → Prop
  | begun (now : Instant) : worker.Acquires →
      store.runWithKey? worker.submission.key = none →
      Move worker seen store
        (.committing (.issued store.issued) 1 (worker.limits.attempts - 1))
        (store.addRun (Acquisition.row (.issued store.issued) 1 now worker.submission))
  | begunAgain (now : Instant) (run : Run) : worker.Acquires →
      store.runWithKey? worker.submission.key = some run →
      run.payloadHash = worker.submission.payloadHash → run.status = .failed →
      Move worker seen store
        (.committing run.id (run.attempts + 1) (worker.limits.attempts - 1))
        (store.putRun (Acquisition.row run.id (run.attempts + 1) now worker.submission))
  | replayed (run : Run) (linkage : Linkage) : worker.Acquires →
      store.runWithKey? worker.submission.key = some run →
      run.payloadHash = worker.submission.payloadHash → run.status = .succeeded →
      run.linkage? = some linkage →
      Move worker seen store (.answered (.ok ⟨run.id, true, some linkage, run.attempts⟩)) store
  | toldToWait (run : Run) : worker.Acquires →
      store.runWithKey? worker.submission.key = some run →
      run.payloadHash = worker.submission.payloadHash → run.status = .processing →
      Move worker seen store (.answered (.ok ⟨run.id, true, none, run.attempts⟩)) store
  | keyLost : worker.stage = .acquiring → Move worker seen store .reacquiring store
  | refused (error : StoreError) : worker.Acquires →
      Move worker seen store (.answered (.error error)) store
  | committed (now : Instant) (run : Run) (attempt left number : Nat) :
      worker.stage = .committing run.id attempt left →
      store.run? run.id = some run →
      run.workspaceId = worker.submission.workspaceId →
      run.payloadHash = worker.submission.payloadHash → run.status = .processing →
      Commit.nextNumber seen = number → store.version? run.workspaceId number = none →
      Move worker seen store
        (.answered (.ok ⟨run.id, false, some ⟨.issued store.issued, number⟩, run.attempts⟩))
        (store.commitRun now run number worker.submission.snapshot)
  /-- The run had made its version before. -/
  | committedBefore (run : Run) (linkage : Linkage) (attempt left : Nat) :
      worker.stage = .committing run.id attempt left → store.run? run.id = some run →
      run.status = .succeeded → run.linkage? = some linkage →
      Move worker seen store (.answered (.ok ⟨run.id, false, some linkage, run.attempts⟩)) store
  /-- The number went to another run. -/
  | numberLost (run : RowId) (attempt left : Nat) :
      worker.stage = .committing run attempt (left + 1) →
      Move worker seen store (.committing run attempt left) store
  | commitFailed (run : RowId) (attempt left : Nat) (error : StoreError) :
      worker.stage = .committing run attempt left →
      Move worker seen store (.failing run attempt error) store
  | failureRecorded (now : Instant) (run : Run) (attempt : Nat) (error answer : StoreError) :
      worker.stage = .failing run.id attempt error → store.run? run.id = some run →
      run.status ≠ .succeeded →
      Move worker seen store (.answered (.error answer))
        (store.putRun ((Failure.ofError error).row now run))
  | failureDropped (run : RowId) (attempt : Nat) (error answer : StoreError) :
      worker.stage = .failing run attempt error →
      Move worker seen store (.answered (.error answer)) store
  | rested : worker.stage.attempt? = none → ¬ worker.Acquires →
      Move worker seen store worker.stage store

namespace Worker

variable {worker : Worker} {store : Store}

theorem afterAcquisition_error (worker : Worker) (isFirst : Bool) (error : StoreError) :
    worker.afterAcquisition isFirst (.error error) = .answered (.error error) ∨
      isFirst = true ∧ worker.afterAcquisition isFirst (.error error) = .reacquiring := by
  cases error with
  | keyTaken key =>
      cases isFirst with
      | false => exact .inl rfl
      | true => exact .inr ⟨rfl, rfl⟩
  | _ => exact .inl rfl

theorem afterCommit_error (run : RowId) (attempt left : Nat) (error : StoreError) :
    afterCommit run attempt left (.error error) = .failing run attempt error ∨
      ∃ fewer, left = fewer + 1 ∧
        afterCommit run attempt left (.error error) = .committing run attempt fewer := by
  cases error with
  | versionTaken workspaceId version =>
      cases left with
      | zero => exact .inl rfl
      | succ fewer => exact .inr ⟨fewer, rfl, rfl⟩
  | _ => exact .inl rfl

theorem move_acquiring (sound : store.Sound) (seen : Option Head) (now : Instant)
    (faults : Faults) (isFirst : Bool)
    (stage : worker.stage = if isFirst then .acquiring else .reacquiring) :
    Move worker seen store
      (worker.afterAcquisition isFirst
        ((Acquisition.make now worker.submission).execute store faults).1)
      ((Acquisition.make now worker.submission).execute store faults).2.1 := by
  have acquires : worker.Acquires := by
    cases isFirst with
    | false => exact .inr stage
    | true => exact .inl stage
  rcases (Acquisition.make_ensures sound now worker.submission).execute faults with
    ⟨error, left, equal, -⟩ | ⟨acquisition, changed, left, equal, outcome⟩
  · rw [equal]
    rcases worker.afterAcquisition_error isFirst error with after | ⟨rfl, after⟩
    · rw [after]
      exact .refused error acquires
    · rw [after]
      exact .keyLost stage
  · rw [equal]
    cases outcome with
    | first fresh => exact .begun now acquires fresh
    | again run found same failed => exact .begunAgain now run acquires found same failed
    | deduplicated run linkage found same succeeded names =>
        exact .replayed run linkage acquires found same succeeded names
    | inFlight run found same processing => exact .toldToWait run acquires found same processing

theorem move_committing (sound : store.Sound) (seen : Option Head) (now : Instant)
    (faults : Faults) {id : RowId} {attempt left : Nat}
    (stage : worker.stage = .committing id attempt left) :
    let result := (Commit.seeing seen now id worker.submission.workspaceId
      worker.submission.payloadHash worker.submission.snapshot).execute store faults
    Move worker seen store (afterCommit id attempt left result.1) result.2.1 := by
  rcases (Commit.seeing_ensures sound seen now id worker.submission.workspaceId
      worker.submission.payloadHash worker.submission.snapshot).execute faults with
    ⟨error, last, equal, -⟩ | ⟨made, changed, last, equal, outcome⟩
  · rw [equal]
    rcases afterCommit_error id attempt left error with after | ⟨fewer, rfl, after⟩
    · simp only [after]
      exact .commitFailed id attempt left error stage
    · simp only [after]
      exact .numberLost id attempt fewer stage
  · rw [equal]
    cases outcome with
    | done run linkage found succeeded names =>
        have same := (Store.mem_of_run? found).2
        subst same
        exact .committedBefore run linkage attempt left stage found succeeded names
    | made run number found workspace payload processing isNumber free =>
        have same := (Store.mem_of_run? found).2
        subst same
        exact .committed now run attempt left number stage found workspace payload processing
          isNumber (workspace ▸ free)

theorem move_failing (sound : store.Sound) (seen : Option Head) (now : Instant)
    (faults : Faults) {id : RowId} {attempt : Nat} {error : StoreError}
    (stage : worker.stage = .failing id attempt error) :
    let result := ((Failure.ofError error).save now id).execute store faults
    Move worker seen store (afterFailure error result.1) result.2.1 := by
  rcases (Failure.save_ensures sound now id (.ofError error)).execute faults with
    ⟨other, left, equal, -⟩ | ⟨status, changed, left, equal, outcome⟩
  · rw [equal]
    exact .failureDropped id attempt error other stage
  · rw [equal]
    cases outcome with
    | succeeded run found succeeded => exact .failureDropped id attempt error _ stage
    | failed run found unfinished =>
        have same := (Store.mem_of_run? found).2
        subst same
        exact .failureRecorded now run attempt error _ stage found unfinished

theorem move_turn (sound : store.Sound) (worker : Worker) (circumstances : Circumstances)
    (seen : Option Head) :
    Move worker seen store (worker.turn circumstances seen store).1
      (worker.turn circumstances seen store).2 := by
  rcases circumstances with ⟨now, faults, age⟩
  rw [turn]
  cases stage : worker.stage with
  | acquiring => exact move_acquiring sound seen now faults true stage
  | reacquiring => exact move_acquiring sound seen now faults false stage
  | committing run attempt left => exact move_committing sound seen now faults stage
  | failing run attempt error => exact move_failing sound seen now faults stage
  | answered answer =>
      have rested : Move worker seen store worker.stage store := .rested
        (by simp [stage, Stage.attempt?]) (by simp [Acquires, stage])
      rwa [stage] at rested
  | lost =>
      have rested : Move worker seen store worker.stage store := .rested
        (by simp [stage, Stage.attempt?]) (by simp [Acquires, stage])
      rwa [stage] at rested

end Worker

theorem Move.sound {worker : Worker} {seen : Option Head} {store left : Store} {stage : Stage}
    (move : Move worker seen store stage left) (sound : store.Sound) : left.Sound := by
  cases move with
  | begun now acquires fresh => exact sound.addRun rfl fresh (Nat.le_refl 1)
  | begunAgain now run acquires found =>
      have parts := Store.mem_of_runWithKey? found
      have stored := sound.run?_of_mem parts.1
      exact sound.putRun stored parts.2.symm (Nat.le_add_left 1 _)
  | committed now run attempt left number stage found =>
      have attempts := sound.attempts run (Store.mem_of_run? found).1
      exact ((sound.addVersion _).putHead _).putRun found rfl attempts
  | failureRecorded now run attempt error answer stage found =>
      exact sound.putRun found rfl (sound.attempts run (Store.mem_of_run? found).1)
  | replayed | toldToWait | keyLost | refused | committedBefore | numberLost | commitFailed
  | failureDropped | rested => exact sound

/-! ## Steps of the system -/

inductive Step (system : System) (number : Nat) : System → Prop
  | nothing : Step system number system
  | arrived (limits : Limits) (submission : Submission) : system.workers number = none →
      Step system number (system.place number (.start limits submission))
  | cutOff (worker : Worker) : system.workers number = some worker →
      Step system number (system.place number { worker with stage := worker.stage.cutOff })
  | moved (worker : Worker) (earlier : Store) (stage : Stage) (store : Store) :
      system.workers number = some worker → earlier ∈ system.store :: system.past →
      Move worker (earlier.head? worker.submission.workspaceId) system.store stage store →
      Step system number
        { system.place number { worker with stage } with
          store, past := system.store :: system.past }

theorem Step.sound {system next : System} {number : Nat} (step : Step system number next)
    (sound : system.store.Sound) : next.store.Sound := by
  cases step with
  | moved worker earlier stage store found member move => exact move.sound sound
  | nothing | arrived | cutOff => exact sound

namespace System

variable {system : System}

theorem headBefore_eq (system : System) (age : Nat) (workspaceId : String) :
    ∃ earlier ∈ system.store :: system.past,
      system.headBefore age workspaceId = earlier.head? workspaceId := by
  rw [headBefore]
  cases found : (system.store :: system.past)[age]? with
  | none => exact ⟨system.store, List.mem_cons_self .., rfl⟩
  | some earlier => exact ⟨earlier, List.mem_of_getElem? found, rfl⟩

theorem step_step (sound : system.store.Sound) (event : Event) :
    Step system event.number (system.step event) := by
  cases event with
  | arrival number limits submission =>
      cases found : system.workers number with
      | none => simpa [step, found, Event.number] using Step.arrived limits submission found
      | some worker => simpa [step, found, Event.number] using Step.nothing
  | turn number circumstances =>
      cases found : system.workers number with
      | none => simpa [step, found, Event.number] using Step.nothing
      | some worker =>
          rcases system.headBefore_eq circumstances.age worker.submission.workspaceId with
            ⟨earlier, member, equal⟩
          have move := Worker.move_turn sound worker circumstances
            (earlier.head? worker.submission.workspaceId)
          simpa [step, found, afterTurn, equal, Event.number] using
            Step.moved worker earlier _ _ found member move
  | loss number =>
      cases found : system.workers number with
      | none => simpa [step, found, Event.number] using Step.nothing
      | some worker => simpa [step, found, Event.number] using Step.cutOff worker found

theorem run_after (events later : List Event) :
    (after events).run later = after (events ++ later) :=
  List.foldl_append.symm

theorem reachable_step (reachable : ∃ events, system = after events) (event : Event) :
    ∃ events, system.step event = after events := by
  rcases reachable with ⟨events, rfl⟩
  exact ⟨events ++ [event], by rw [after, after, run, run, List.foldl_append]; rfl⟩

theorem reachable_run (reachable : ∃ events, system = after events) (later : List Event) :
    ∃ events, system.run later = after events := by
  rcases reachable with ⟨events, rfl⟩
  exact ⟨events ++ later, run_after events later⟩

/-- What every step keeps holds after all events, as does that the store is sound. -/
theorem run_induction (holds : System → Prop)
    (kept : ∀ {system number next}, system.store.Sound → holds system →
      Step system number next → holds next)
    (sound : system.store.Sound) (start : holds system) (events : List Event) :
    (system.run events).store.Sound ∧ holds (system.run events) := by
  induction events generalizing system with
  | nil => exact ⟨sound, start⟩
  | cons event events induction =>
      have step := step_step sound event
      exact induction (step.sound sound) (kept sound start step)

theorem after_induction (holds : System → Prop)
    (kept : ∀ {system number next}, system.store.Sound → holds system →
      Step system number next → holds next)
    (start : holds initial) (events : List Event) : holds (after events) :=
  (run_induction holds kept .empty start events).2

theorem sound_run (sound : system.store.Sound) (events : List Event) :
    (system.run events).store.Sound :=
  (run_induction (fun _ => True) (fun _ _ _ => trivial) sound trivial events).1

theorem sound_after (events : List Event) : (after events).store.Sound :=
  sound_run .empty events

theorem sound_of_reachable (reachable : ∃ events, system = after events) :
    system.store.Sound := by
  rcases reachable with ⟨events, rfl⟩
  exact sound_after events

end System

end WorkspaceGraph
