import WorkspaceGraph.Proofs.Interleaving.Linkage
import WorkspaceGraph.Proofs.Interleaving.Replay
/-!
Where runs come from. Whoever has come in keeps the submission and, once there is one, the answer;
and every run is of what somebody has submitted who has come in. So a receipt tells of the only
version under a key.
-/

namespace WorkspaceGraph

/-! ## Workers -/

theorem Move.answered_stays {worker : Worker} {seen : Option Head} {store left : Store}
    {stage : Stage} (move : Move worker seen store stage left)
    {answer : Except StoreError Receipt} (answered : worker.stage = .answered answer) :
    stage = .answered answer := by
  have idle : ¬ worker.Acquires := by simp [Worker.Acquires, answered]
  cases move with
  | rested => exact answered
  | begun now acquires | begunAgain now run acquires | replayed run linkage acquires
  | toldToWait run acquires | refused error acquires => exact absurd acquires idle
  | keyLost stage | committed now run attempt left number stage
  | committedBefore run linkage attempt left stage | numberLost run attempt left stage
  | commitFailed run attempt left error stage | failureRecorded now run attempt error other stage
  | failureDropped run attempt error other stage =>
      rw [answered] at stage
      cases stage

theorem Step.worker_stays {system next : System} {number other : Nat}
    (step : Step system other next) {worker : Worker}
    (found : system.workers number = some worker) :
    ∃ stage, next.workers number = some { worker with stage } ∧
      ∀ answer, worker.stage = .answered answer → stage = .answered answer := by
  by_cases same : other = number
  · subst other
    cases step with
    | nothing => exact ⟨worker.stage, found, fun _ answered => answered⟩
    | arrived limits submission free =>
        rw [found] at free
        cases free
    | cutOff was wasFound =>
        rw [found] at wasFound
        cases wasFound
        refine ⟨worker.stage.cutOff, by simp [System.place_workers], fun answer answered => ?_⟩
        rw [answered, Stage.cutOff]
    | moved was earlier stage store wasFound member move =>
        rw [found] at wasFound
        cases wasFound
        exact ⟨stage, by simp [System.place_workers], fun _ => move.answered_stays⟩
  · refine ⟨worker.stage, ?_, fun _ answered => answered⟩
    exact (System.workers_step step same).trans found

namespace System

variable {system : System} {number : Nat} {worker : Worker}

theorem place_eq_some {other : Nat} {there : Worker}
    (found : (system.place number worker).workers other = some there) :
    other = number ∧ worker = there ∨ system.workers other = some there := by
  rw [place_workers] at found
  split at found
  · exact .inl ⟨‹_›, Option.some.inj found⟩
  · exact .inr found

theorem worker_of_step {event : Event} (found : (system.step event).workers number = some worker) :
    (∃ stage, system.workers number = some { worker with stage }) ∨
      ∃ limits, event = .arrival number limits worker.submission := by
  have before : system.workers number = some worker →
      ∃ stage, system.workers number = some { worker with stage } := fun was => ⟨worker.stage, was⟩
  cases event with
  | arrival other limits submission =>
      cases was : system.workers other with
      | some there =>
          simp only [step, was] at found
          exact .inl (before found)
      | none =>
          simp only [step, was] at found
          rcases place_eq_some found with ⟨rfl, rfl⟩ | stays
          · exact .inr ⟨limits, rfl⟩
          · exact .inl (before stays)
  | turn other | loss other =>
      cases was : system.workers other with
      | none =>
          simp only [step, was] at found
          exact .inl (before found)
      | some there =>
          simp only [step, was] at found
          rcases place_eq_some found with ⟨rfl, rfl⟩ | stays
          · exact .inl ⟨there.stage, was⟩
          · exact .inl (before stays)

end System

/-! ## Runs -/

structure Run.From (run : Run) (submission : Submission) : Prop where
  key : run.key = submission.key
  workspaceId : run.workspaceId = submission.workspaceId
  payloadHash : run.payloadHash = submission.payloadHash

theorem Run.From.of_same {run old : Run} {submission : Submission} (source : old.From submission)
    (key : run.key = old.key) (workspaceId : run.workspaceId = old.workspaceId)
    (payloadHash : run.payloadHash = old.payloadHash) : run.From submission :=
  ⟨key.trans source.key, workspaceId.trans source.workspaceId,
    payloadHash.trans source.payloadHash⟩

theorem Move.runs_from {worker : Worker} {seen : Option Head} {store left : Store} {stage : Stage}
    (move : Move worker seen store stage left) (sound : store.Sound) {run : Run}
    (member : run ∈ left.runs) :
    run.From worker.submission ∨
      ∃ old ∈ store.runs, ∀ submission, old.From submission → run.From submission := by
  cases move with
  | begun now acquires fresh =>
      rcases List.mem_append.mp member with member | member
      · exact .inr ⟨run, member, fun _ source => source⟩
      · rw [List.mem_singleton.mp member]
        exact .inl ⟨rfl, rfl, rfl⟩
  | begunAgain now old acquires found =>
      let row := Acquisition.row old.id (old.attempts + 1) now worker.submission
      have stored : store.run? row.id = some old :=
        sound.run?_of_mem (Store.mem_of_runWithKey? found).1
      rcases (Store.mem_putRun stored).mp member with rfl | ⟨member, -⟩
      · exact .inl ⟨rfl, rfl, rfl⟩
      · exact .inr ⟨run, member, fun _ source => source⟩
  | committed now old attempt left number stage found =>
      rcases (Store.mem_commitRun found).mp member with rfl | ⟨member, -⟩
      · exact .inr ⟨old, (Store.mem_of_run? found).1, fun _ source => source.of_same rfl rfl rfl⟩
      · exact .inr ⟨run, member, fun _ source => source⟩
  | failureRecorded now old attempt error answer stage found =>
      have stored : store.run? ((Failure.ofError error).row now old).id = some old := found
      rcases (Store.mem_putRun stored).mp member with rfl | ⟨member, -⟩
      · exact .inr ⟨old, (Store.mem_of_run? found).1, fun _ source => source.of_same rfl rfl rfl⟩
      · exact .inr ⟨run, member, fun _ source => source⟩
  | replayed | toldToWait | keyLost | refused | committedBefore | numberLost | commitFailed
  | failureDropped | rested => exact .inr ⟨run, member, fun _ source => source⟩

namespace System

def Sourced (system : System) : Prop :=
  ∀ run ∈ system.store.runs, ∃ number worker,
    system.workers number = some worker ∧ run.From worker.submission

theorem Sourced.step {system next : System} {number : Nat} (sourced : system.Sourced)
    (sound : system.store.Sound) (step : Step system number next) : next.Sourced := by
  intro run member
  have before : ∀ old ∈ system.store.runs,
      (∀ submission, old.From submission → run.From submission) →
      ∃ number worker, next.workers number = some worker ∧ run.From worker.submission := by
    intro old oldMember passed
    rcases sourced old oldMember with ⟨other, worker, found, source⟩
    rcases step.worker_stays found with ⟨stage, stays, -⟩
    exact ⟨other, _, stays, passed _ source⟩
  cases step with
  | nothing | arrived | cutOff => exact before run member fun _ source => source
  | moved worker earlier stage store found earlierMember move =>
      rcases move.runs_from sound member with source | ⟨old, oldMember, passed⟩
      · exact ⟨number, { worker with stage }, by simp [place_workers], source⟩
      · exact before old oldMember passed

theorem sourced_after (events : List Event) : (after events).Sourced :=
  after_induction Sourced (fun sound sourced step => sourced.step sound step)
    (by simp [Sourced, initial, Store.empty]) events

end System

/-! ## Receipts -/

structure Receipt.Tells (receipt : Receipt) (version : Version) : Prop where
  run : receipt.run = version.runId
  linkage : receipt.linkage = some ⟨version.id, version.number⟩

/-- Whoever is answered with a version is told of the only one under the key. It is of what somebody
has submitted who has come in with the key. -/
theorem System.version_of_receipt (events : List Event) {number : Nat} {worker : Worker}
    {receipt : Receipt} (found : (after events).workers number = some worker)
    (answered : worker.stage = .answered (.ok receipt)) (succeeded : receipt.status = .succeeded) :
    ∃ version other source,
      (after events).store.versionsUnder worker.submission.key = [version] ∧
      receipt.Tells version ∧ (after events).workers other = some source ∧
      source.submission.key = worker.submission.key ∧
      version.workspaceId = source.submission.workspaceId ∧
      version.payloadHash = source.submission.payloadHash := by
  have sound := sound_after events
  have linked := linked_after events
  rcases attested_after events number worker receipt found answered succeeded with
    ⟨run, member, attests⟩
  rcases linked.succeeded run member attests.succeeded with ⟨version, only, names⟩
  rcases sourced_after events run member with ⟨other, source, sourceFound, comes⟩
  have made : version ∈ (after events).store.madeBy run.id := by simp [only]
  have origin : version.runId = run.id := by simpa using (List.mem_filter.mp made).2
  refine ⟨version, other, source, ?_, ⟨?_, ?_⟩, sourceFound, ?_, ?_, ?_⟩
  · rw [← attests.key, linked.versionsUnder_eq sound member, only]
  · exact attests.id.symm.trans origin.symm
  · exact attests.linkage.symm.trans names.linkage?
  · exact comes.key.symm.trans attests.key
  · exact names.workspaceId.symm.trans comes.workspaceId
  · exact names.payloadHash.symm.trans comes.payloadHash

end WorkspaceGraph
