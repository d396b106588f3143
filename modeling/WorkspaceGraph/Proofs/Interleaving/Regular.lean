import WorkspaceGraph.Proofs.Ingestion.Calm
/-!
What holds of a store at all times, and what a submission of a new key comes to in such a store if
nothing goes wrong, in one go and turn by turn.
-/

namespace WorkspaceGraph

/-! ## Regular stores -/

/-- The ids of versions were issued by the store and are told apart. -/
structure Store.Minted (store : Store) : Prop where
  issued : ∀ version ∈ store.versions, ∃ number < store.issued, version.id = .issued number
  ids : (store.versions.map Version.id).Nodup

namespace Store.Minted

variable {store : Store}

theorem empty : Store.empty.Minted where
  issued := by simp [Store.empty]
  ids := List.nodup_nil

theorem id_ne_issued (minted : store.Minted) {version : Version}
    (member : version ∈ store.versions) : version.id ≠ .issued store.issued := by
  intro equal
  rcases minted.issued version member with ⟨number, below, isIssued⟩
  rw [equal] at isIssued
  injection isIssued with isNumber
  omega

theorem addRun (minted : store.Minted) (run : Run) : (store.addRun run).Minted where
  issued := by
    intro version member
    rcases minted.issued version member with ⟨number, below, isIssued⟩
    exact ⟨number, Nat.lt_succ_of_lt below, isIssued⟩
  ids := minted.ids

theorem putRun (minted : store.Minted) (run : Run) : (store.putRun run).Minted :=
  ⟨minted.issued, minted.ids⟩

theorem commitRun (minted : store.Minted) (now : Instant) (run : Run) (number : Nat)
    (snapshot : Snapshot) : (store.commitRun now run number snapshot).Minted where
  issued := by
    intro version member
    rcases List.mem_append.mp member with member | member
    · rcases minted.issued version member with ⟨number, below, isIssued⟩
      exact ⟨number, Nat.lt_succ_of_lt below, isIssued⟩
    · rw [List.mem_singleton.mp member]
      exact ⟨store.issued, Nat.lt_succ_self _, rfl⟩
  ids := by
    rw [commitRun_versions, List.map_append]
    refine List.nodup_append.mpr ⟨minted.ids, by simp, ?_⟩
    intro id idMember other otherMember equal
    rcases List.mem_map.mp idMember with ⟨version, member, rfl⟩
    rw [List.mem_singleton.mp otherMember] at equal
    exact minted.id_ne_issued member equal

end Store.Minted

theorem Move.minted {worker : Worker} {seen : Option Head} {store left : Store} {stage : Stage}
    (move : Move worker seen store stage left) (minted : store.Minted) : left.Minted := by
  cases move with
  | begun => exact minted.addRun _
  | begunAgain | failureRecorded => exact minted.putRun _
  | committed now run attempt left number => exact minted.commitRun now run number _
  | replayed | toldToWait | keyLost | refused | committedBefore | numberLost | commitFailed
  | failureDropped | rested => exact minted

theorem System.minted_after (events : List Event) : (after events).store.Minted := by
  refine after_induction (fun system => system.store.Minted)
    (fun _ minted step => ?_) .empty events
  cases step with
  | nothing | arrived | cutOff => exact minted
  | moved worker earlier stage store found member move => exact move.minted minted

structure Store.Regular (store : Store) : Prop where
  sound : store.Sound
  linked : store.Linked
  gapless : store.Gapless
  minted : store.Minted

theorem System.regular_after (events : List Event) : (after events).store.Regular :=
  ⟨sound_after events, linked_after events, (recorded_after events).gapless, minted_after events⟩

theorem System.regular_of_reachable {system : System}
    (reachable : ∃ events, system = after events) : system.store.Regular := by
  rcases reachable with ⟨events, rfl⟩
  exact regular_after events

/-! ## New keys in one go -/

namespace Store

variable {store : Store} {submission : Submission} {now : Instant}

def nextFor (store : Store) (submission : Submission) : Nat :=
  (store.history submission.workspaceId).length + 1

def ingestNew (store : Store) (now : Instant) (submission : Submission) : Store :=
  let run := Acquisition.row (.issued store.issued) 1 now submission
  (store.addRun run).commitRun now run (store.nextFor submission) submission.snapshot

theorem Regular.ingestNew (regular : store.Regular)
    (fresh : store.runWithKey? submission.key = none) (now : Instant) :
    (store.ingestNew now submission).Regular := by
  let run := Acquisition.row (.issued store.issued) 1 now submission
  have sound : (store.addRun run).Sound := regular.sound.addRun rfl fresh (Nat.le_refl 1)
  have found : (store.addRun run).run? run.id = some run := regular.sound.run?_addRun rfl
  have linked : (store.addRun run).Linked :=
    regular.linked.addRun regular.sound rfl (by simp [run, Acquisition.row]) rfl rfl
  have versions : (store.addRun run).versions = store.versions := rfl
  have gapless : (store.addRun run).Gapless := (regular.gapless.of_eq versions rfl).1
  have minted : (store.addRun run).Minted := regular.minted.addRun run
  constructor
  · exact ((sound.addVersion _).putHead _).putRun found rfl (Nat.le_refl 1)
  · exact linked.commitRun found rfl rfl now _
  · exact gapless.commitRun now run rfl _
  · exact minted.commitRun now run _ _

theorem Regular.versionId_ne_issued (regular : store.Regular) {run : Run}
    (member : run ∈ store.runs) : run.versionId ≠ some (.issued store.issued) := by
  by_cases succeeded : run.status = .succeeded
  · rcases regular.linked.succeeded run member succeeded with ⟨version, only, names⟩
    have made : version ∈ store.madeBy run.id := by simp [only]
    rw [names.id]
    simpa using regular.minted.id_ne_issued (List.mem_filter.mp made).1
  · simp [(regular.linked.unfinished run member succeeded).2.1]

theorem Regular.runId_ne (regular : store.Regular) {run : Run} (member : run ∈ store.runs)
    (unfinished : run.status ≠ .succeeded) {version : Version}
    (versionMember : version ∈ store.versions) : version.runId ≠ run.id := by
  intro origin
  exact unfinished ((regular.linked.succeeded_iff member).mpr ⟨version, versionMember, origin⟩)

theorem runWithKey?_commitRun {run : Run} (stored : store.run? run.id = some run) {key : String}
    (absent : store.runWithKey? key = none) (now : Instant) (number : Nat) (snapshot : Snapshot) :
    (store.commitRun now run number snapshot).runWithKey? key = none := by
  rw [runWithKey?_eq_none] at absent ⊢
  intro row member
  rcases (mem_commitRun stored).mp member with rfl | ⟨member, -⟩
  · exact absent run (mem_of_run? stored).1
  · exact absent row member

theorem runs_ingestNew (sound : store.Sound) (now : Instant) (submission : Submission) :
    (store.ingestNew now submission).runs = store.runs ++
      [Commit.row now ⟨.issued (store.issued + 1), (store.nextFor submission : Nat)⟩
        (Acquisition.row (.issued store.issued) 1 now submission)] := by
  have untouched : ∀ run ∈ store.runs, run.id ≠ .issued store.issued := fun _ member =>
    sound.id_ne_issued member
  exact replaceRun_concat untouched rfl

end Store

theorem Service.ingest_new {store : Store} (regular : store.Regular) {limits : Limits}
    {request : Request} {submission : Submission}
    (prepared : Submission.prepare limits request = .ok submission)
    (fresh : store.runWithKey? submission.key = none) (now : Instant) :
    Comes (ingest limits now request) store
      (.ok ⟨.issued store.issued, false,
        some ⟨.issued (store.issued + 1), (store.nextFor submission : Nat)⟩, 1⟩)
      (store.ingestNew now submission) := by
  have loopless := Submission.loopless_of_prepare prepared
  rcases ingestSubmission_served regular.sound regular.linked regular.gapless limits now loopless
    with ⟨result, changed, served, comes⟩
  have same : ingest limits now request = pure submission >>= ingestSubmission limits now := by
    rw [ingest, prepare, prepared]
  rw [same, pure_bind]
  cases served with
  | committed id attempts middle outcome =>
      cases outcome with
      | first => exact comes
      | again run found =>
          rw [fresh] at found
          cases found
  | replayed run linkage found | toldToWait run found | refused run found =>
      rw [fresh] at found
      cases found

/-! ## New keys turn by turn -/

namespace System

variable {system : System} {number : Nat} {worker : Worker} {now : Instant}

def calmTurn (turn : Nat × Instant) : Event := .turn turn.1 ⟨turn.2, .none, 0⟩

theorem step_acquiring (sound : system.store.Sound)
    (found : system.workers number = some worker) (stage : worker.stage = .acquiring)
    (fresh : system.store.runWithKey? worker.submission.key = none) (now : Instant) :
    let run := Acquisition.row (.issued system.store.issued) 1 now worker.submission
    system.step (calmTurn (number, now)) =
      { system.place number { worker with
          stage := .committing run.id 1 (worker.limits.attempts - 1) } with
        store := system.store.addRun run
        past := system.store :: system.past } := by
  intro run
  have outcome : Acquisition.Outcome now worker.submission system.store (.acquired run.id 1)
      (system.store.addRun run) := .first fresh
  have turned := worker.turn_acquiring true stage now ⟨system.store, .none, []⟩
  rw [(Acquisition.make_gives sound outcome).execute] at turned
  exact step_of_turn found turned

theorem step_committing (sound : system.store.Sound) (gapless : system.store.Gapless)
    (loopless : worker.submission.snapshot.Loopless)
    (found : system.workers number = some worker) {run : Run} {left : Nat}
    (stage : worker.stage = .committing run.id run.attempts left)
    (stored : system.store.run? run.id = some run) (processing : run.status = .processing)
    (workspace : run.workspaceId = worker.submission.workspaceId)
    (payload : run.payloadHash = worker.submission.payloadHash) (now : Instant) :
    let next := system.store.nextFor worker.submission
    system.step (calmTurn (number, now)) =
      { system.place number { worker with
          stage := .answered (.ok ⟨run.id, false, some ⟨.issued system.store.issued, next⟩,
            run.attempts⟩) } with
        store := system.store.commitRun now run next worker.submission.snapshot
        past := system.store :: system.past } := by
  intro next
  have turned := worker.turn_committing stage now ⟨system.store, .none, []⟩
  have executed := (Commit.make_gives sound gapless stored processing now loopless).execute
  rw [workspace, payload] at executed
  rw [Worker.commit, executed] at turned
  exact step_of_turn found turned

end System

end WorkspaceGraph
