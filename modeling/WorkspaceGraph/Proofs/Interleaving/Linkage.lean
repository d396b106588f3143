import WorkspaceGraph.Proofs.Ingestion.Actions
import WorkspaceGraph.Proofs.Interleaving.Ownership
/-!
Runs and the versions they make. Every run that succeeded has made one version and names it; every
other run has made none and names none. So no key ever gets two versions, and the version of a run
that succeeded is never missing.
-/

namespace WorkspaceGraph

open Transaction

structure Run.Names (run : Run) (version : Version) : Prop where
  id : run.versionId = some version.id
  number : run.versionNumber = some (version.number : Int)
  workspaceId : run.workspaceId = version.workspaceId
  payloadHash : run.payloadHash = version.payloadHash
  counts : run.counts = version.counts

theorem Run.Names.linkage? {run : Run} {version : Version} (names : run.Names version) :
    run.linkage? = some ⟨version.id, version.number⟩ := by
  rw [Run.linkage?, names.id, names.number]

def StoreError.isBroken : StoreError → Bool
  | .ingestion error => error.kind = .brokenRecord
  | _ => false

namespace Store

def madeBy (store : Store) (id : RowId) : List Version :=
  store.versions.filter fun version => version.runId = id

def versionsUnder (store : Store) (key : String) : List Version :=
  store.versions.filter fun version => (store.run? version.runId).any fun run => run.key = key

/-- Every version was made by a run, and every run names what it has made. -/
structure Linked (store : Store) : Prop where
  origins : ∀ version ∈ store.versions, ∃ run ∈ store.runs, run.id = version.runId
  succeeded : ∀ run ∈ store.runs, run.status = .succeeded →
    ∃ version, store.madeBy run.id = [version] ∧ run.Names version
  unfinished : ∀ run ∈ store.runs, run.status ≠ .succeeded →
    store.madeBy run.id = [] ∧ run.versionId = none ∧ run.versionNumber = none

namespace Linked

variable {store : Store}

theorem empty : Store.empty.Linked where
  origins := by simp [Store.empty]
  succeeded := by simp [Store.empty]
  unfinished := by simp [Store.empty]

theorem madeBy_issued (linked : store.Linked) (sound : store.Sound) :
    store.madeBy (.issued store.issued) = [] := by
  apply List.filter_eq_nil_iff.mpr
  intro version member
  rcases linked.origins version member with ⟨run, runMember, origin⟩
  have different := sound.id_ne_issued runMember
  rw [origin] at different
  simpa using different

theorem addRun (linked : store.Linked) (sound : store.Sound) {run : Run}
    (id : run.id = .issued store.issued) (status : run.status ≠ .succeeded)
    (versionId : run.versionId = none) (versionNumber : run.versionNumber = none) :
    (store.addRun run).Linked where
  origins := by
    intro version member
    rcases linked.origins version member with ⟨other, otherMember, origin⟩
    exact ⟨other, List.mem_append_left _ otherMember, origin⟩
  succeeded := by
    intro other member succeeded
    rcases List.mem_append.mp member with member | member
    · exact linked.succeeded other member succeeded
    · rw [List.mem_singleton.mp member] at succeeded
      exact absurd succeeded status
  unfinished := by
    intro other member unfinished
    rcases List.mem_append.mp member with member | member
    · exact linked.unfinished other member unfinished
    · rw [List.mem_singleton.mp member]
      exact ⟨id ▸ linked.madeBy_issued sound, versionId, versionNumber⟩

theorem putRun (linked : store.Linked) {changed old : Run}
    (found : store.run? changed.id = some old) (was : old.status ≠ .succeeded)
    (status : changed.status ≠ .succeeded) (versionId : changed.versionId = none)
    (versionNumber : changed.versionNumber = none) : (store.putRun changed).Linked where
  origins := by
    intro version member
    rcases linked.origins version member with ⟨other, otherMember, origin⟩
    by_cases same : other.id = changed.id
    · exact ⟨changed, (mem_putRun found).mpr (.inl rfl), same.symm.trans origin⟩
    · exact ⟨other, (mem_putRun found).mpr (.inr ⟨otherMember, same⟩), origin⟩
  succeeded := by
    intro run member succeeded
    rcases (mem_putRun found).mp member with rfl | ⟨member, -⟩
    · exact absurd succeeded status
    · exact linked.succeeded run member succeeded
  unfinished := by
    intro run member unfinished
    rcases (mem_putRun found).mp member with rfl | ⟨member, -⟩
    · have parts := mem_of_run? found
      have none := (linked.unfinished old parts.1 was).1
      rw [parts.2] at none
      exact ⟨none, versionId, versionNumber⟩
    · exact linked.unfinished run member unfinished

theorem madeBy_commitRun (now : Instant) (run : Run) (number : Nat) (snapshot : Snapshot)
    (id : RowId) :
    (store.commitRun now run number snapshot).madeBy id =
      if run.id = id then
        store.madeBy id ++ [Commit.version (.issued store.issued) run.id run.workspaceId
          run.payloadHash number snapshot]
      else store.madeBy id := by
  simp only [madeBy, commitRun_versions, List.filter_append]
  by_cases same : run.id = id
  · simp [Commit.version, same]
  · simp [Commit.version, same]

theorem commitRun (linked : store.Linked) {run : Run} (found : store.run? run.id = some run)
    (processing : run.status = .processing) {snapshot : Snapshot}
    (counts : run.counts = .ofSummary snapshot.summary) (now : Instant) (number : Nat) :
    (store.commitRun now run number snapshot).Linked := by
  have parts := mem_of_run? found
  constructor
  · intro version member
    rcases List.mem_append.mp member with member | member
    · rcases linked.origins version member with ⟨other, otherMember, origin⟩
      by_cases same : other.id = run.id
      · exact ⟨_, (mem_commitRun found).mpr (.inl rfl), same.symm.trans origin⟩
      · exact ⟨other, (mem_commitRun found).mpr (.inr ⟨otherMember, same⟩), origin⟩
    · rw [List.mem_singleton.mp member]
      exact ⟨_, (mem_commitRun found).mpr (.inl rfl), rfl⟩
  · intro other member succeeded
    rw [madeBy_commitRun]
    rcases (mem_commitRun found).mp member with rfl | ⟨member, different⟩
    · have unfinished := linked.unfinished run parts.1 (by simp [processing])
      refine ⟨Commit.version (.issued store.issued) run.id run.workspaceId run.payloadHash number
        snapshot, ?_, rfl, rfl, rfl, rfl, counts⟩
      simp [Commit.row, unfinished.1]
    · rw [if_neg different.symm]
      exact linked.succeeded other member succeeded
  · intro other member unfinished
    rw [madeBy_commitRun]
    rcases (mem_commitRun found).mp member with rfl | ⟨member, different⟩
    · exact absurd rfl unfinished
    · rw [if_neg different.symm]
      exact linked.unfinished other member unfinished

/-! ## What follows for a store -/

theorem succeeded_iff (linked : store.Linked) {run : Run} (member : run ∈ store.runs) :
    run.status = .succeeded ↔ ∃ version ∈ store.versions, version.runId = run.id := by
  constructor
  · intro succeeded
    rcases linked.succeeded run member succeeded with ⟨version, only, -⟩
    have made : version ∈ store.madeBy run.id := by simp [only]
    have parts := List.mem_filter.mp made
    exact ⟨version, parts.1, by simpa using parts.2⟩
  · rintro ⟨version, versionMember, origin⟩
    apply Decidable.byContradiction
    intro unfinished
    have none := (linked.unfinished run member unfinished).1
    have made : version ∈ store.madeBy run.id :=
      List.mem_filter.mpr ⟨versionMember, by simpa using origin⟩
    rw [none] at made
    cases made

theorem versionsUnder_eq (linked : store.Linked) (sound : store.Sound) {run : Run}
    (member : run ∈ store.runs) : store.versionsUnder run.key = store.madeBy run.id := by
  apply List.filter_congr
  intro version versionMember
  rcases linked.origins version versionMember with ⟨other, otherMember, origin⟩
  rw [← origin, sound.run?_of_mem otherMember]
  by_cases same : other.id = run.id
  · have equal := sound.eq_of_id otherMember member same
    simp [equal]
  · have different : other.key ≠ run.key := by
      intro equal
      exact same (congrArg Run.id (sound.eq_of_key otherMember member equal))
    simp [same, different]

theorem length_versionsUnder_le (linked : store.Linked) (sound : store.Sound) (key : String) :
    (store.versionsUnder key).length ≤ 1 := by
  cases found : store.runWithKey? key with
  | none =>
      have nothing : store.versionsUnder key = [] := by
        apply List.filter_eq_nil_iff.mpr
        intro version member
        rcases linked.origins version member with ⟨run, runMember, origin⟩
        have different := key_ne_of_runWithKey?_eq_none found runMember
        simpa [← origin, sound.run?_of_mem runMember] using different
      simp [nothing]
  | some run =>
      have parts := mem_of_runWithKey? found
      rw [← parts.2, linked.versionsUnder_eq sound parts.1]
      by_cases succeeded : run.status = .succeeded
      · rcases linked.succeeded run parts.1 succeeded with ⟨version, only, -⟩
        simp [only]
      · simp [(linked.unfinished run parts.1 succeeded).1]

theorem linkage?_ne_none (linked : store.Linked) {run : Run} (member : run ∈ store.runs)
    (succeeded : run.status = .succeeded) : run.linkage? ≠ none := by
  rcases linked.succeeded run member succeeded with ⟨version, -, names⟩
  simp [names.linkage?]

theorem acquisition_never_misses (linked : store.Linked) (sound : store.Sound) (now : Instant)
    (submission : Submission) :
    Fulfils (Acquisition.make now submission) store (fun _ _ => True)
      fun error => error.isBroken = false := by
  refine ((Acquisition.make_ensures sound now submission).mono (fun _ _ _ => trivial)
    fun error refusal => ?_).fulfils
  cases refusal with
  | keyReused | keyTaken => rfl
  | missingLinkage run found succeeded missing =>
      exact absurd missing (linked.linkage?_ne_none (mem_of_runWithKey? found).1 succeeded)

theorem commit_never_misses (linked : store.Linked) (sound : store.Sound) (seen : Option Head)
    (now : Instant) (id : RowId) (workspaceId payloadHash : String) (snapshot : Snapshot) :
    Fulfils (Commit.seeing seen now id workspaceId payloadHash snapshot) store (fun _ _ => True)
      fun error => error.isBroken = false := by
  refine ((Commit.seeing_ensures sound seen now id workspaceId payloadHash snapshot).mono
    (fun _ _ _ => trivial) fun error refusal => ?_).fulfils
  cases refusal with
  | unknownRun | otherWorkspace | otherPayload | wrongState | versionTaken => rfl
  | missingLinkage run found succeeded missing =>
      exact absurd missing (linked.linkage?_ne_none (mem_of_run? found).1 succeeded)

end Linked

theorem mem_of_latestOf {runs : List Run} {run : Run} (found : latestOf runs = some run) :
    run ∈ runs := by
  induction runs with
  | nil => cases found
  | cons next rest induction =>
      rw [latestOf] at found
      cases later : latestOf rest with
      | none =>
          rw [later] at found
          cases found
          exact List.mem_cons_self ..
      | some other =>
          rw [later] at found
          dsimp only at found
          split at found
          · cases found
            exact List.mem_cons_self ..
          · cases found
            exact List.mem_cons_of_mem _ (induction later)

theorem mem_of_latestSucceeded? {store : Store} {workspaceId : String} {run : Run}
    (found : store.latestSucceeded? workspaceId = some run) :
    run ∈ store.runs ∧ run.workspaceId = workspaceId ∧ run.status = .succeeded := by
  have parts := List.mem_filter.mp (mem_of_latestOf found)
  simpa using parts

end Store

theorem Submission.isBroken_of_normalizeWorkspaceId {limits : Limits} {workspaceId : String}
    {error : IngestionError}
    (refused : normalizeWorkspaceId limits workspaceId = .error error) :
    (StoreError.ingestion error).isBroken = false := by
  rw [normalizeWorkspaceId, normalizeRequired] at refused
  split at refused
  · cases refused
    rfl
  · split at refused
    · cases refused
      rfl
    · cases refused

theorem Store.Linked.latest_never_misses {store : Store} (linked : store.Linked)
    (limits : Limits) (workspaceId : String) (faults : Faults) (log : List Log.Entry)
    {error : StoreError} {left : World}
    (failed : (Service.latest limits workspaceId).outcome ⟨store, faults, log⟩ =
      (.error error, left)) :
    faults.Raises error ∨ error.isBroken = false := by
  rw [Service.latest] at failed
  cases normal : Submission.normalizeWorkspaceId limits workspaceId with
  | error refused =>
      rw [normal] at failed
      cases failed
      exact .inr (Submission.isBroken_of_normalizeWorkspaceId normal)
  | ok name =>
      simp only [normal, Service.outcome_bind, Service.outcome_inspect] at failed
      have asked : Ensures (findLatestSucceeded name) store
          (fun found left => found = store.latestSucceeded? name ∧ left = store)
          (fun _ => False) := findLatestSucceeded_ensures name
      rcases asked.observe faults with 
        ⟨other, last, equal, reason⟩ | ⟨found, changed, last, equal, isFound, -⟩
      · rw [equal] at failed
        cases failed
        exact reason.imp_right False.elim
      · rw [equal] at failed
        cases found with
        | none => cases failed
        | some run =>
            have latest := mem_of_latestSucceeded? isFound.symm
            cases missing : run.linkage? with
            | none => exact absurd missing (linked.linkage?_ne_none latest.1 latest.2.2)
            | some linkage =>
                simp only [missing] at failed
                cases failed

/-! ## At all times -/

theorem Move.linked {worker : Worker} {seen : Option Head} {store left : Store} {stage : Stage}
    (move : Move worker seen store stage left) (sound : store.Sound) (linked : store.Linked)
    (own : ∀ {id attempt}, worker.stage.attempt? = some (id, attempt) →
      ∃ started, store.run? id = some (Acquisition.row id attempt started worker.submission)) :
    left.Linked := by
  cases move with
  | begun now acquires fresh => exact linked.addRun sound rfl (by simp [Acquisition.row]) rfl rfl
  | begunAgain now run acquires found same failed =>
      have stored := sound.run?_of_mem (Store.mem_of_runWithKey? found).1
      exact linked.putRun stored (by simp [failed]) (by simp [Acquisition.row]) rfl rfl
  | committed now run attempt left number stage found workspace payload processing =>
      -- The counts are those of the snapshot, as the row is still the one the worker wrote.
      rcases own (by rw [stage, Stage.attempt?]) with ⟨started, row⟩
      have same := row.symm.trans found
      have counts : run.counts = .ofSummary worker.submission.snapshot.summary := by
        rw [← Option.some.inj same, Acquisition.row]
      exact linked.commitRun found processing counts now number
  | failureRecorded now run attempt error answer stage found unfinished =>
      have none := (linked.unfinished run (Store.mem_of_run? found).1 unfinished).2
      exact linked.putRun found unfinished (by simp [Failure.row]) none.1 none.2
  | replayed | toldToWait | keyLost | refused | committedBefore | numberLost | commitFailed
  | failureDropped | rested => exact linked

namespace System

theorem linked_after (events : List Event) : (after events).store.Linked := by
  refine (after_induction (fun system => system.Owned ∧ system.store.Linked)
    (fun {system number next} sound holds step => ?_) ⟨.initial, .empty⟩ events).2
  refine ⟨holds.1.step sound step, ?_⟩
  cases step with
  | nothing | arrived | cutOff => exact holds.2
  | moved worker earlier stage store found member move =>
      exact move.linked sound holds.2 (holds.1.rows found)

/-- At all times a key has one run at most, and a run has succeeded if and only if it made a
version; it made only the one that it names. Whatever else is there names no version. So no key
gets two versions, and nothing that looks for the version of a run that succeeded misses it. -/
theorem versions_linked (events : List Event) :
    let store := (after events).store
    (store.runs.map Run.key).Nodup ∧
    (∀ run ∈ store.runs,
      run.status = .succeeded ↔ ∃ version ∈ store.versions, version.runId = run.id) ∧
    (∀ run ∈ store.runs, run.status = .succeeded →
      ∃ version, store.madeBy run.id = [version] ∧ run.Names version) ∧
    (∀ run ∈ store.runs, run.status ≠ .succeeded →
      store.madeBy run.id = [] ∧ run.versionId = none ∧ run.versionNumber = none) ∧
    (∀ version ∈ store.versions, ∃ run ∈ store.runs, run.id = version.runId) ∧
    (∀ key, (store.versionsUnder key).length ≤ 1) ∧
    (∀ now submission, Fulfils (Acquisition.make now submission) store (fun _ _ => True)
      fun error => error.isBroken = false) ∧
    (∀ seen now id workspaceId payloadHash snapshot,
      Fulfils (Commit.seeing seen now id workspaceId payloadHash snapshot) store
        (fun _ _ => True) fun error => error.isBroken = false) ∧
    ∀ limits workspaceId faults log error left,
      (Service.latest limits workspaceId).outcome ⟨store, faults, log⟩ = (.error error, left) →
      faults.Raises error ∨ error.isBroken = false := by
  have sound := sound_after events
  have linked := linked_after events
  refine ⟨sound.keys, fun run => linked.succeeded_iff, linked.succeeded, linked.unfinished,
    linked.origins, linked.length_versionsUnder_le sound,
    linked.acquisition_never_misses sound, linked.commit_never_misses sound, ?_⟩
  intro limits workspaceId faults log error left failed
  exact linked.latest_never_misses limits workspaceId faults log failed

end System

end WorkspaceGraph
