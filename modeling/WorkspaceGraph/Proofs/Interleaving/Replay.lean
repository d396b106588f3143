import WorkspaceGraph.Proofs.Ingestion.Replay
import WorkspaceGraph.Proofs.Interleaving.Ownership
/-!
Once a submission was answered with a version, its key is settled: the run that succeeded stays as
it is whatever happens, and every later submission under the key gets the same answer or is
refused.
-/

namespace WorkspaceGraph

/-! ## Runs that succeeded -/

theorem Store.Sound.mem_putRun_of_ne {store : Store} (sound : store.Sound)
    {changed old run : Run} (found : store.run? changed.id = some old) (member : run ∈ store.runs)
    (different : run ≠ old) : run ∈ (store.putRun changed).runs := by
  have parts := mem_of_run? found
  refine (mem_putRun found).mpr (.inr ⟨member, fun same => different ?_⟩)
  exact sound.eq_of_id member parts.1 (same.trans parts.2.symm)

theorem Run.ne_of_status {run other : Run} {status : RunStatus} (is : run.status = status)
    (isNot : other.status ≠ status) : run ≠ other := by
  rintro rfl
  exact isNot is

theorem Move.succeeded_stays {worker : Worker} {seen : Option Head} {store left : Store}
    {stage : Stage} (move : Move worker seen store stage left) (sound : store.Sound) {run : Run}
    (member : run ∈ store.runs) (succeeded : run.status = .succeeded) : run ∈ left.runs := by
  cases move with
  | begun => exact List.mem_append_left _ member
  | begunAgain now old acquires found same failed =>
      have stored := sound.run?_of_mem (Store.mem_of_runWithKey? found).1
      exact sound.mem_putRun_of_ne stored member (Run.ne_of_status succeeded (by simp [failed]))
  | committed now old attempt left number stage found workspace payload processing =>
      have unfinished : old.status ≠ .succeeded := by simp [processing]
      have different := Run.ne_of_status succeeded unfinished
      exact ((sound.addVersion _).putHead _).mem_putRun_of_ne found member different
  | failureRecorded now old attempt error answer stage found unfinished =>
      exact sound.mem_putRun_of_ne found member (Run.ne_of_status succeeded unfinished)
  | replayed | toldToWait | keyLost | refused | committedBefore | numberLost | commitFailed
  | failureDropped | rested => exact member

theorem Step.succeeded_stays {system next : System} {number : Nat}
    (step : Step system number next) (sound : system.store.Sound) {run : Run}
    (member : run ∈ system.store.runs) (succeeded : run.status = .succeeded) :
    run ∈ next.store.runs := by
  cases step with
  | nothing | arrived | cutOff => exact member
  | moved worker earlier stage store found _ move =>
      exact move.succeeded_stays sound member succeeded

/-! ## Evidence of answers -/

theorem Move.attests {worker : Worker} {seen : Option Head} {store left : Store} {stage : Stage}
    (move : Move worker seen store stage left) (sound : store.Sound)
    (own : ∀ {id attempt}, worker.stage.attempt? = some (id, attempt) →
      ∃ started, store.run? id = some (Acquisition.row id attempt started worker.submission))
    {receipt : Receipt} (answered : stage = .answered (.ok receipt))
    (succeeded : receipt.status = .succeeded) :
    worker.stage = stage ∨ ∃ run ∈ left.runs, run.Attests worker.submission receipt := by
  cases move with
  | replayed run linkage acquires found same status names =>
      cases answered
      have parts := Store.mem_of_runWithKey? found
      exact .inr ⟨run, parts.1, parts.2, same, rfl, status, names, rfl⟩
  | toldToWait run acquires found same processing =>
      cases answered
      cases succeeded
  | committed now run attempt left number stage found workspace payload processing =>
      cases answered
      rcases own (by rw [stage, Stage.attempt?]) with ⟨started, row⟩
      have key : run.key = worker.submission.key := by
        rw [← Option.some.inj (row.symm.trans found), Acquisition.row]
      have stored : (store.commitRun now run number worker.submission.snapshot).run? run.id =
          some (Commit.row now ⟨.issued store.issued, number⟩ run) :=
        ((sound.addVersion _).putHead _).run?_putRun found rfl
          (sound.attempts run (Store.mem_of_run? found).1)
      exact .inr ⟨_, (Store.mem_of_run? stored).1, key, payload, rfl, rfl, rfl, rfl⟩
  | committedBefore run linkage attempt left stage found status =>
      -- The run that the worker has acquired is still in progress.
      rcases own (by rw [stage, Stage.attempt?]) with ⟨started, row⟩
      rw [← Option.some.inj (row.symm.trans found)] at status
      cases status
  | rested => exact .inl rfl
  | begun | begunAgain | keyLost | refused | numberLost | commitFailed | failureRecorded
  | failureDropped => cases answered

namespace System

def Attested (system : System) : Prop :=
  ∀ number worker receipt, system.workers number = some worker →
    worker.stage = .answered (.ok receipt) → receipt.status = .succeeded →
    ∃ run ∈ system.store.runs, run.Attests worker.submission receipt

theorem Attested.step {system next : System} {number : Nat} (sound : system.store.Sound)
    (owned : system.Owned) (attested : system.Attested) (step : Step system number next) :
    next.Attested := by
  intro other otherWorker receipt found answered succeeded
  have before : ∀ {worker}, system.workers other = some worker →
      worker.stage = .answered (.ok receipt) →
      ∃ run ∈ next.store.runs, run.Attests worker.submission receipt := by
    intro worker found answered
    rcases attested other worker receipt found answered succeeded with ⟨run, member, attests⟩
    exact ⟨run, step.succeeded_stays sound member attests.succeeded, attests⟩
  cases step with
  | nothing => exact before found answered
  | arrived limits submission free =>
      rw [place_workers] at found
      split at found
      · cases found
        cases answered
      · exact before found answered
  | cutOff worker was =>
      rw [place_workers] at found
      split at found
      · cases found
        subst other
        have same : worker.stage = .answered (.ok receipt) := by
          cases stage : worker.stage with
          | answered answer => simpa [stage, Stage.cutOff] using answered
          | _ => simp [stage, Stage.cutOff] at answered
        have evidence := before was same
        exact evidence
      · exact before found answered
  | moved worker earlier stage store was member move =>
      simp only [place_workers] at found
      split at found
      · cases found
        subst other
        rcases move.attests sound (owned.rows was) answered succeeded with same | attests
        · have evidence := before was (same.trans answered)
          exact evidence
        · exact attests
      · exact before found answered

theorem attested_after (events : List Event) : (after events).Attested := by
  refine (after_induction (fun system => system.Owned ∧ system.Attested)
    (fun sound holds step => ?_) ⟨.initial, fun number worker receipt found => ?_⟩ events).2
  · exact ⟨holds.1.step sound step, holds.2.step sound holds.1 step⟩
  · cases found

end System

/-! ## Later submissions -/

namespace Worker

variable {worker : Worker} {store : Store} {run : Run} {earlier : Submission} {receipt : Receipt}

theorem turn_replay (acquires : worker.Acquires)
    (found : store.runWithKey? worker.submission.key = some run)
    (attests : run.Attests earlier receipt) {linkage : Linkage}
    (names : receipt.linkage = some linkage) (now : Instant) (age : Nat) (seen : Option Head) :
    worker.turn ⟨now, .missing 0, age⟩ seen store =
      (.answered (receipt.replay earlier worker.submission), store) := by
  have answered : ∀ isFirst,
      worker.afterAcquisition isFirst
        (Acquisition.replay receipt linkage earlier worker.submission) =
      .answered (receipt.replay earlier worker.submission) := by
    intro isFirst
    rw [Acquisition.replay, Receipt.replay]
    by_cases same : worker.submission.payloadHash = earlier.payloadHash
    · simp [same, afterAcquisition, resume, names]
    · simp [same, afterAcquisition]
  rcases acquires with stage | stage
  · simp only [turn, stage, Acquisition.execute_replay now found attests names, answered]
  · simp only [turn, stage, Acquisition.execute_replay now found attests names, answered]

theorem turn_missing (acquiring : worker.stage = .acquiring)
    (found : store.runWithKey? worker.submission.key = some run) (now : Instant) (misses age : Nat)
    (seen : Option Head) :
    worker.turn ⟨now, .missing (misses + 1), age⟩ seen store = (.reacquiring, store) := by
  simp only [turn, acquiring, Acquisition.execute_missing now misses found]
  rfl

end Worker

namespace System

variable {system : System} {earlier : Submission} {receipt : Receipt}

theorem succeeded_run (sound : system.store.Sound) {run : Run}
    (member : run ∈ system.store.runs) (succeeded : run.status = .succeeded)
    (events : List Event) : run ∈ (system.run events).store.runs :=
  (run_induction (fun system => run ∈ system.store.runs)
    (fun sound member step => step.succeeded_stays sound member succeeded)
    sound member events).2

def Evident (system : System) (earlier : Submission) (receipt : Receipt) : Prop :=
  ∃ run ∈ system.store.runs, run.Attests earlier receipt

theorem Evident.run (evident : system.Evident earlier receipt) (sound : system.store.Sound)
    (events : List Event) : (system.run events).Evident earlier receipt := by
  rcases evident with ⟨run, member, attests⟩
  exact ⟨run, succeeded_run sound member attests.succeeded events, attests⟩

theorem Evident.runWithKey? (evident : system.Evident earlier receipt)
    (sound : system.store.Sound) {key : String} (same : key = earlier.key) :
    ∃ run, system.store.runWithKey? key = some run ∧ run.Attests earlier receipt := by
  rcases evident with ⟨run, member, attests⟩
  refine ⟨run, ?_, attests⟩
  rw [same, ← attests.key]
  exact sound.runWithKey?_of_mem member

theorem step_turn {number : Nat} {worker : Worker} (found : system.workers number = some worker)
    {circumstances : Circumstances} {stage : Stage} {left : Store}
    (turn : ∀ seen, worker.turn circumstances seen system.store = (stage, left)) :
    let next := system.step (.turn number circumstances)
    next.store = left ∧ next.workers number = some { worker with stage } := by
  simp [step, found, afterTurn, turn, place_workers]

/-- What later submissions under a key get after a first one was answered with a version. -/
structure Settled (system : System) (earlier : Submission) (receipt : Receipt) : Prop where
  /-- A request that is ingested in one go, whether or not the run is missed at first, gets the
  replay and changes nothing. -/
  ingested : ∀ limits now request later misses log,
    Submission.prepare limits request = .ok later → later.key = earlier.key → misses ≤ 1 →
    ∃ faults noted, (Service.ingest limits now request).outcome
        ⟨system.store, .missing misses, log⟩ =
      (receipt.replay earlier later, ⟨system.store, faults, noted⟩)
  /-- So does a worker that sees the run. -/
  seen : ∀ number worker now age, system.workers number = some worker → worker.Acquires →
    worker.submission.key = earlier.key →
    let next := system.step (.turn number ⟨now, .missing 0, age⟩)
    next.store = system.store ∧ next.workers number =
      some { worker with stage := .answered (receipt.replay earlier worker.submission) }
  /-- A worker that misses the run changes nothing and gets the replay at its next turn, whatever
  the others do in between. -/
  missed : ∀ number worker now misses age, system.workers number = some worker →
    worker.stage = .acquiring → worker.submission.key = earlier.key →
    let lost := system.step (.turn number ⟨now, .missing (misses + 1), age⟩)
    lost.store = system.store ∧ ∀ between, (∀ event ∈ between, event.number ≠ number) →
      ∀ now age,
        let next := (lost.run between).step (.turn number ⟨now, .missing 0, age⟩)
        next.store = (lost.run between).store ∧ next.workers number =
          some { worker with stage := .answered (receipt.replay earlier worker.submission) }
  /-- Whoever else was answered with a version was answered with the same one. -/
  agreed : ∀ number worker again, system.workers number = some worker →
    worker.submission.key = earlier.key → worker.stage = .answered (.ok again) →
    again.status = .succeeded →
    again.run = receipt.run ∧ again.linkage = receipt.linkage ∧ again.attempts = receipt.attempts

theorem Evident.seen (evident : system.Evident earlier receipt) (sound : system.store.Sound)
    {linkage : Linkage} (names : receipt.linkage = some linkage) {number : Nat} {worker : Worker}
    (found : system.workers number = some worker) (acquires : worker.Acquires)
    (key : worker.submission.key = earlier.key) (now : Instant) (age : Nat) :
    let next := system.step (.turn number ⟨now, .missing 0, age⟩)
    next.store = system.store ∧ next.workers number =
      some { worker with stage := .answered (receipt.replay earlier worker.submission) } := by
  rcases evident.runWithKey? sound key with ⟨run, stored, attests⟩
  exact step_turn found (worker.turn_replay acquires stored attests names now age)

theorem Evident.settled (evident : system.Evident earlier receipt) (sound : system.store.Sound)
    (attested : system.Attested) (succeeded : receipt.status = .succeeded) :
    system.Settled earlier receipt := by
  rcases receipt.linkage_of_succeeded succeeded with ⟨linkage, names⟩
  constructor
  · intro limits now request later misses log prepared key few
    rcases evident.runWithKey? sound key with ⟨run, stored, attests⟩
    exact Service.outcome_ingest prepared now few log stored attests names
  · intro number worker now age found acquires key
    exact evident.seen sound names found acquires key now age
  · intro number worker now misses age found acquiring key
    rcases evident.runWithKey? sound key with ⟨run, stored, attests⟩
    have lost := step_turn found (worker.turn_missing acquiring stored now misses age)
    -- The others may have changed the store, but there is evidence as before.
    have lostSound := sound_run sound [.turn number ⟨now, .missing (misses + 1), age⟩]
    have still := evident.run sound [.turn number ⟨now, .missing (misses + 1), age⟩]
    refine ⟨lost.1, fun between others again age => ?_⟩
    have waiting := (workers_run lostSound between others).trans lost.2
    exact (still.run lostSound between).seen (sound_run lostSound between) names waiting
      (.inr rfl) key again age
  · intro number worker again found key answered isAnswer
    rcases evident.runWithKey? sound key with ⟨run, stored, attests⟩
    rcases attested number worker again found answered isAnswer with ⟨other, member, others⟩
    have same := sound.runWithKey?_of_mem member
    rw [others.key, stored] at same
    cases same
    refine ⟨others.id.symm.trans attests.id, others.linkage.symm.trans attests.linkage,
      others.attempts.symm.trans attests.attempts⟩

/-- After a submission was answered with a version its key is settled for ever. -/
theorem replay_stable (events : List Event) {number : Nat} {worker : Worker} {receipt : Receipt}
    (found : (after events).workers number = some worker)
    (answered : worker.stage = .answered (.ok receipt)) (succeeded : receipt.status = .succeeded)
    (later : List Event) : ((after events).run later).Settled worker.submission receipt := by
  have sound := sound_after events
  have evident : (after events).Evident worker.submission receipt :=
    attested_after events number worker receipt found answered succeeded
  have joined : (after events).run later = after (events ++ later) := by
    rw [after, after, System.run, System.run, System.run, List.foldl_append]
  refine (evident.run sound later).settled ?_ ?_ succeeded
  · rw [joined]
    exact sound_after _
  · rw [joined]
    exact attested_after _

/-- The key of the first submission is settled when another one under it has come in. -/
theorem replay_stable_once :
    ((after [.arrival 0 .standard (.bare "key" "payload"), .turn 0 .calm, .turn 0 .calm]).run
      [.arrival 1 .standard (.bare "key" "payload")]).Settled (.bare "key" "payload")
        ⟨.issued 0, false, some ⟨.issued 1, 1⟩, 1⟩ :=
  @replay_stable _ 0 ⟨.standard, .bare "key" "payload",
    .answered (.ok ⟨.issued 0, false, some ⟨.issued 1, 1⟩, 1⟩)⟩ _ rfl rfl rfl _

end System

end WorkspaceGraph
