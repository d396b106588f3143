import WorkspaceGraph.Proofs.Interleaving.Replay
/-!
The life of a run. It is in progress from its first attempt on, an attempt ends well or not, and
only a run that failed gets another attempt. Its columns say at all times where it stands, and it
counts the acquisitions there were.
-/

namespace WorkspaceGraph

/-! ## Rows -/

structure Run.Orderly (run : Run) : Prop where
  completedAt : run.completedAt = none ↔ run.status = .processing
  errorCode : run.errorCode.isSome ↔ run.status = .failed
  errorMessage : run.errorMessage.isSome ↔ run.status = .failed

theorem Acquisition.row_orderly (id : RowId) (attempts : Nat) (now : Instant)
    (submission : Submission) : (row id attempts now submission).Orderly := by
  constructor <;> simp [row]

theorem Commit.row_orderly (now : Instant) (linkage : Linkage) (run : Run) :
    (row now linkage run).Orderly := by
  constructor <;> simp [row]

theorem Failure.row_orderly (now : Instant) (failure : Failure) (run : Run) :
    (failure.row now run).Orderly := by
  constructor <;> simp [row]

structure Run.Continues (new old : Run) : Prop where
  id : new.id = old.id
  key : new.key = old.key
  payloadHash : new.payloadHash = old.payloadHash

theorem Run.Continues.refl (run : Run) : run.Continues run := ⟨rfl, rfl, rfl⟩

theorem Run.Continues.trans {last new old : Run} (first : last.Continues new)
    (second : new.Continues old) : last.Continues old :=
  ⟨first.id.trans second.id, first.key.trans second.key,
    first.payloadHash.trans second.payloadHash⟩

/-! ## Changes -/

/-- What may become of the runs of a store, given the run that is acquired thereby. -/
inductive Store.Revision (before : Store) : Option RowId → Store → Prop
  | kept {after : Store} : after.runs = before.runs → Revision before none after
  | created {after : Store} (run : Run) : run.status = .processing → run.attempts = 1 →
      run.Orderly → (∀ other ∈ before.runs, other.id ≠ run.id ∧ other.key ≠ run.key) →
      after.runs = before.runs ++ [run] → Revision before (some run.id) after
  | retried {after : Store} (old new : Run) : old ∈ before.runs → new.Continues old →
      old.status = .failed → new.status = .processing → new.attempts = old.attempts + 1 →
      new.Orderly → after.runs = Transaction.replaceRun new before.runs →
      Revision before (some old.id) after
  | finished {after : Store} (old new : Run) : old ∈ before.runs → new.Continues old →
      old.status = .processing → new.status = .succeeded ∨ new.status = .failed →
      new.attempts = old.attempts → new.Orderly →
      after.runs = Transaction.replaceRun new before.runs → Revision before none after

namespace Store

def attemptsOf (store : Store) (id : RowId) : Nat := ((store.run? id).map Run.attempts).getD 0

theorem attemptsOf_of_mem {store : Store} (sound : store.Sound) {run : Run}
    (member : run ∈ store.runs) : store.attemptsOf run.id = run.attempts := by
  rw [attemptsOf, sound.run?_of_mem member]
  rfl

theorem attemptsOf_of_runs_eq {store other : Store} (same : store.runs = other.runs) (id : RowId) :
    store.attemptsOf id = other.attemptsOf id := by
  rw [attemptsOf, attemptsOf, run?, run?, same]

theorem Sound.attemptsOf_putRun {store : Store} (sound : store.Sound) {changed old : Run}
    (found : store.run? changed.id = some old) (key : changed.key = old.key)
    (attempts : 1 ≤ changed.attempts) (id : RowId) :
    (store.putRun changed).attemptsOf id =
      if changed.id = id then changed.attempts else store.attemptsOf id := by
  by_cases same : changed.id = id
  · subst same
    simp [attemptsOf, sound.run?_putRun found key attempts]
  · simp [attemptsOf, run?_putRun_of_ne (Ne.symm same), same]

namespace Revision

variable {before after : Store} {acquired : Option RowId}

theorem orderly (revision : before.Revision acquired after) (sound : before.Sound)
    (orderly : ∀ run ∈ before.runs, run.Orderly) : ∀ run ∈ after.runs, run.Orderly := by
  intro run member
  cases revision with
  | kept same =>
      rw [same] at member
      exact orderly run member
  | created new status attempts newOrderly fresh appended =>
      rw [appended] at member
      rcases List.mem_append.mp member with member | member
      · exact orderly run member
      · rw [List.mem_singleton.mp member]
        exact newOrderly
  | retried old new oldMember continues was is attempts newOrderly replaced
  | finished old new oldMember continues was is attempts newOrderly replaced =>
      have found : before.run? new.id = some old := continues.id ▸ sound.run?_of_mem oldMember
      rw [replaced] at member
      rcases (mem_putRun found).mp member with same | ⟨member, -⟩
      · rw [same]
        exact newOrderly
      · exact orderly run member

theorem continues (revision : before.Revision acquired after) (sound : before.Sound) {run : Run}
    (member : run ∈ before.runs) : ∃ kept ∈ after.runs, kept.Continues run := by
  cases revision with
  | kept same => exact ⟨run, same ▸ member, .refl run⟩
  | created new status attempts orderly fresh appended =>
      exact ⟨run, appended ▸ List.mem_append_left _ member, .refl run⟩
  | retried old new oldMember continues was is attempts orderly replaced
  | finished old new oldMember continues was is attempts orderly replaced =>
      have found : before.run? new.id = some old := continues.id ▸ sound.run?_of_mem oldMember
      rw [replaced]
      by_cases same : run = old
      · subst same
        exact ⟨new, (mem_putRun found).mpr (.inl rfl), continues⟩
      · exact ⟨run, sound.mem_putRun_of_ne found member same, .refl run⟩

/-- A run has had one attempt more if it was acquired, and as many as before if not. -/
theorem attemptsOf_eq (revision : before.Revision acquired after) (sound : before.Sound)
    (id : RowId) :
    after.attemptsOf id = before.attemptsOf id + if acquired = some id then 1 else 0 := by
  cases revision with
  | kept same => simp [attemptsOf_of_runs_eq same]
  | created run status attempts orderly fresh appended =>
      have absent : before.runs.find? (fun other => other.id = run.id) = none := by
        apply List.find?_eq_none.mpr
        intro other member
        simpa using (fresh other member).1
      rw [attemptsOf, attemptsOf, run?, run?, appended, List.find?_append]
      by_cases same : run.id = id
      · subst same
        simp [absent, attempts]
      · simp [same]
  | retried old new member continues was is attempts orderly replaced =>
      have found : before.run? new.id = some old := continues.id ▸ sound.run?_of_mem member
      have now := sound.attemptsOf_putRun found continues.key (by omega) id
      have was := attemptsOf_of_mem sound member
      have same : after.runs = (before.putRun new).runs := replaced
      rw [attemptsOf_of_runs_eq same, now, ← continues.id]
      by_cases same : new.id = id
      · subst same
        simp [continues.id, was, attempts]
      · simp [same]
  | finished old new member continues was is attempts orderly replaced =>
      have found : before.run? new.id = some old := continues.id ▸ sound.run?_of_mem member
      have positive := sound.attempts old member
      have now := sound.attemptsOf_putRun found continues.key (by omega) id
      have was := attemptsOf_of_mem sound member
      have same : after.runs = (before.putRun new).runs := replaced
      rw [attemptsOf_of_runs_eq same, now]
      by_cases same : new.id = id
      · subst same
        simp [continues.id, was, attempts]
      · simp [same]

end Revision

end Store

/-! ## Transactions -/

/-- The run that a submission acquires if the transaction in which it looks up its key comes to
this. -/
def Acquisition.acquired? : Except StoreError Acquisition → Option RowId
  | .ok (.acquired run _) => some run
  | _ => none

theorem Acquisition.revision {store : Store} (sound : store.Sound) (now : Instant)
    (submission : Submission) (faults : Faults) :
    let result := (make now submission).execute store faults
    store.Revision (acquired? result.1) result.2.1 := by
  rcases (make_ensures sound now submission).execute faults with
    ⟨error, left, equal, -⟩ | ⟨acquisition, changed, left, equal, outcome⟩
  · rw [equal]
    exact .kept rfl
  · rw [equal]
    cases outcome with
    | first fresh =>
        refine .created (row (.issued store.issued) 1 now submission) rfl rfl (row_orderly ..) ?_ rfl
        intro other member
        exact ⟨sound.id_ne_issued member, Store.key_ne_of_runWithKey?_eq_none fresh member⟩
    | again run found same failed =>
        have parts := Store.mem_of_runWithKey? found
        exact .retried run (row run.id (run.attempts + 1) now submission) parts.1
          ⟨rfl, parts.2.symm, same.symm⟩ failed rfl rfl (row_orderly ..) rfl
    | deduplicated | inFlight => exact .kept rfl

namespace System

variable {system : System} {number : Nat} {worker : Worker} {run : Run}

def acquired? (system : System) : Event → Option RowId
  | .turn number ⟨now, faults, _⟩ =>
      match system.workers number with
      | some ⟨_, submission, .acquiring⟩ | some ⟨_, submission, .reacquiring⟩ =>
          Acquisition.acquired? ((Acquisition.make now submission).execute system.store faults).1
      | _ => none
  | .arrival .. | .loss _ => none

def acquisitions (system : System) (id : RowId) : List Event → Nat
  | [] => 0
  | event :: events =>
      (if system.acquired? event = some id then 1 else 0) +
        (system.step event).acquisitions id events

theorem Owns.revision_commit (owns : system.Owns number worker run)
    (processing : run.status = .processing) (seen : Option Head) (now : Instant)
    (faults : Faults) :
    system.store.Revision none ((Commit.seeing seen now run.id worker.submission.workspaceId
      worker.submission.payloadHash worker.submission.snapshot).execute system.store
        faults).2.1 := by
  have committed := owns.commits seen now faults
  generalize (Commit.seeing seen now run.id worker.submission.workspaceId
    worker.submission.payloadHash worker.submission.snapshot).execute system.store faults = result
    at committed ⊢
  rcases result with ⟨error | made, left, rest⟩
  · exact .kept (by rw [committed.1])
  · rcases committed with ⟨count, -, -, rfl⟩
    exact .finished run (Commit.row now ⟨.issued system.store.issued, count⟩ run)
      (Store.mem_of_run? owns.row).1 ⟨rfl, rfl, rfl⟩ processing (.inl rfl) rfl
      (Commit.row_orderly ..) rfl

theorem Owns.revision_fail (owns : system.Owns number worker run)
    (processing : run.status = .processing) (now : Instant) (failure : Failure)
    (faults : Faults) :
    system.store.Revision none
      ((failure.save now run.id).execute system.store faults).2.1 := by
  have failed := owns.fails now failure faults
  generalize (failure.save now run.id).execute system.store faults = result at failed ⊢
  rcases result with ⟨error | status, left, rest⟩
  · exact .kept (by rw [failed.1])
  · rcases failed with ⟨-, rfl⟩
    exact .finished run (failure.row now run) (Store.mem_of_run? owns.row).1 ⟨rfl, rfl, rfl⟩
      processing (.inr rfl) rfl (Failure.row_orderly ..) rfl

/-! ## Steps -/

theorem revision_step (sound : system.store.Sound) (owned : system.Owned) (event : Event) :
    system.store.Revision (system.acquired? event) (system.step event).store := by
  cases event with
  | arrival number limits submission =>
      refine .kept ?_
      rw [step]
      split <;> rfl
  | loss number =>
      refine .kept ?_
      rw [step]
      split <;> rfl
  | turn number circumstances =>
      rcases circumstances with ⟨now, faults, age⟩
      cases found : system.workers number with
      | none =>
          have same : system.acquired? (.turn number ⟨now, faults, age⟩) = none := by
            simp only [acquired?, found]
          rw [same, step, found]
          exact .kept rfl
      | some worker =>
          rcases worker with ⟨limits, submission, stage⟩
          simp only [acquired?, found, step, afterTurn]
          cases stage with
          | acquiring | reacquiring => exact Acquisition.revision sound now submission faults
          | committing id attempt left =>
              rcases owned.owns sound found rfl with ⟨started, owns⟩
              exact owns.revision_commit rfl _ now faults
          | failing id attempt error =>
              rcases owned.owns sound found rfl with ⟨started, owns⟩
              exact owns.revision_fail rfl now _ faults
          | answered answer => exact .kept rfl
          | lost => exact .kept rfl

/-! ## At all times -/

/-- What the ways in which runs change keep holds after all events. -/
theorem revision_induction (holds : Store → Prop)
    (kept : ∀ {before after acquired}, before.Sound → holds before →
      before.Revision acquired after → holds after)
    (sound : system.store.Sound) (owned : system.Owned) (start : holds system.store)
    (events : List Event) : holds (system.run events).store := by
  induction events generalizing system with
  | nil => exact start
  | cons event events induction =>
      have step := step_step sound event
      have next := kept sound start (revision_step sound owned event)
      exact induction (step.sound sound) (owned.step sound step) next

theorem attemptsOf_run (sound : system.store.Sound) (owned : system.Owned) (events : List Event)
    (id : RowId) :
    (system.run events).store.attemptsOf id =
      system.store.attemptsOf id + system.acquisitions id events := by
  induction events generalizing system with
  | nil => rfl
  | cons event events induction =>
      have step := step_step sound event
      have rest := induction (step.sound sound) (owned.step sound step)
      rw [(revision_step sound owned event).attemptsOf_eq sound] at rest
      rw [acquisitions, ← Nat.add_assoc]
      exact rest

theorem orderly_after (events : List Event) : ∀ run ∈ (after events).store.runs, run.Orderly :=
  revision_induction (fun store => ∀ run ∈ store.runs, run.Orderly)
    (fun sound orderly revision => revision.orderly sound orderly)
    .empty .initial (by simp [initial, Store.empty]) events

theorem attempts_after (events : List Event) {run : Run}
    (member : run ∈ (after events).store.runs) :
    run.attempts = initial.acquisitions run.id events := by
  have counted := attemptsOf_run .empty .initial events run.id
  have none : initial.store.attemptsOf run.id = 0 := rfl
  rw [none, Nat.zero_add] at counted
  exact (Store.attemptsOf_of_mem (sound_after events) member).symm.trans counted

theorem continues_run (sound : system.store.Sound) (owned : system.Owned)
    (member : run ∈ system.store.runs) (later : List Event) :
    ∃ kept ∈ (system.run later).store.runs, kept.Continues run := by
  refine revision_induction (fun store => ∃ kept ∈ store.runs, kept.Continues run)
    (fun sound holds revision => ?_) sound owned ⟨run, member, .refl run⟩ later
  rcases holds with ⟨old, oldMember, continues⟩
  rcases revision.continues sound oldMember with ⟨new, newMember, further⟩
  exact ⟨new, newMember, further.trans continues⟩

/-- At all times the next event changes the runs in one of the ways there are, every run tells
where it stands and how often it was acquired, and whatever happens later it is found with its key
and its payload, and as it is if it succeeded. -/
theorem runs_disciplined (events : List Event) :
    let system := after events
    (∀ event, system.store.Revision (system.acquired? event) (system.step event).store) ∧
    (∀ run ∈ system.store.runs,
      run.Orderly ∧ run.attempts = initial.acquisitions run.id events) ∧
    ∀ run ∈ system.store.runs, ∀ later, ∃ kept,
      (system.run later).store.run? run.id = some kept ∧ kept.Continues run ∧
        (run.status = .succeeded → kept = run) := by
  have sound := sound_after events
  have owned := owned_after events
  refine ⟨revision_step sound owned, fun run member => ?_, fun run member later => ?_⟩
  · exact ⟨orderly_after events run member, attempts_after events member⟩
  · rcases continues_run sound owned member later with ⟨kept, keptMember, continues⟩
    have stored := (sound_run sound later).run?_of_mem keptMember
    rw [continues.id] at stored
    refine ⟨kept, stored, continues, fun succeeded => ?_⟩
    have still := succeeded_run sound member succeeded later
    exact (sound_run sound later).eq_of_id keptMember still continues.id

end System

end WorkspaceGraph
