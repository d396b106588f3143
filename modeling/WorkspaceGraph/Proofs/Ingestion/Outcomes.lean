import WorkspaceGraph.Proofs.Ingestion.Rows
import WorkspaceGraph.Proofs.Store.Operations
/-!
What the three transactions of an ingestion can do to a sound store, and why they refuse. Nothing
else comes of them, whatever goes wrong.
-/

namespace WorkspaceGraph

open Transaction

theorem Run.linkage_ensures {run : Run} {store : Store} {refusal : StoreError → Prop}
    (missing : run.linkage? = none → refusal (.ingestion .missingLinkage)) :
    Ensures run.linkage store
      (fun linkage left => run.linkage? = some linkage ∧ left = store) refusal := by
  rw [Run.linkage]
  cases names : run.linkage? with
  | none => exact .throw (missing names)
  | some linkage => exact .pure ⟨rfl, rfl⟩

/-! ## Acquiring -/

namespace Acquisition

inductive Outcome (now : Instant) (submission : Submission) (store : Store) :
    Acquisition → Store → Prop
  | first : store.runWithKey? submission.key = none →
      Outcome now submission store (.acquired (.issued store.issued) 1)
        (store.addRun (row (.issued store.issued) 1 now submission))
  | again (run : Run) : store.runWithKey? submission.key = some run →
      run.payloadHash = submission.payloadHash → run.status = .failed →
      Outcome now submission store (.acquired run.id (run.attempts + 1))
        (store.putRun (row run.id (run.attempts + 1) now submission))
  | deduplicated (run : Run) (linkage : Linkage) :
      store.runWithKey? submission.key = some run →
      run.payloadHash = submission.payloadHash → run.status = .succeeded →
      run.linkage? = some linkage →
      Outcome now submission store (.deduplicated run.id linkage run.attempts) store
  | inFlight (run : Run) : store.runWithKey? submission.key = some run →
      run.payloadHash = submission.payloadHash → run.status = .processing →
      Outcome now submission store (.inFlight run.id run.attempts) store

inductive Refusal (submission : Submission) (store : Store) : StoreError → Prop
  | keyReused (run : Run) : store.runWithKey? submission.key = some run →
      run.payloadHash ≠ submission.payloadHash → Refusal submission store (.ingestion .keyReused)
  | keyTaken (run : Run) : store.runWithKey? submission.key = some run →
      Refusal submission store (.keyTaken (some submission.key))
  | missingLinkage (run : Run) : store.runWithKey? submission.key = some run →
      run.status = .succeeded → run.linkage? = none →
      Refusal submission store (.ingestion .missingLinkage)

theorem make_ensures {store : Store} (sound : store.Sound) (now : Instant)
    (submission : Submission) :
    Ensures (make now submission) store (Outcome now submission store)
      (Refusal submission store) := by
  -- A lookup that misses leads to the same insertion as a key that is new.
  have insertion : Ensures (do return acquired (← insertRun (first now submission)).id 1) store
      (Outcome now submission store) (Refusal submission store) := by
    refine (insertRun_ensures (toRun_first _ now submission) fun run found => ?_).bind ?_
    · exact .keyTaken run found
    · rintro run changed ⟨rfl, fresh, rfl⟩
      exact .pure (.first fresh)
  refine (findRunWithKey_ensures submission.key).bind ?_
  rintro seen changed ⟨missed | found, rfl⟩
  · subst missed
    exact insertion
  · subst found
    cases found : changed.runWithKey? submission.key with
    | none => exact insertion
    | some run =>
        have parts := Store.mem_of_runWithKey? found
        by_cases same : run.payloadHash = submission.payloadHash
        · simp only [Decision.make, same, if_true]
          cases status : run.status with
          | processing => exact .pure (.inFlight run found same status)
          | succeeded =>
              refine (Run.linkage_ensures fun missing =>
                .missingLinkage run found status missing).bind ?_
              rintro linkage left ⟨names, rfl⟩
              exact .pure (.deduplicated run linkage found same status names)
          | failed =>
              have row := toRun_another run.id now parts.2 (Nat.le_add_left 1 run.attempts)
              exact (patchRun_ensures (sound.run?_of_mem parts.1) row parts.2.symm).bind_discard
                (.pure (.again run found same status))
        · simp only [Decision.make, same, if_false]
          exact .throw (.keyReused run found same)

end Acquisition

/-! ## Committing -/

def Store.commitRun (store : Store) (now : Instant) (run : Run) (number : Nat)
    (snapshot : Snapshot) : Store :=
  ((store.addVersion (Commit.version (.issued store.issued) run.id run.workspaceId
      run.payloadHash number snapshot)).putHead ⟨run.workspaceId, number⟩).putRun
    (Commit.row now ⟨.issued store.issued, number⟩ run)

@[simp] theorem Store.commitRun_versions (store : Store) (now : Instant) (run : Run)
    (number : Nat) (snapshot : Snapshot) :
    (store.commitRun now run number snapshot).versions = store.versions ++
      [Commit.version (.issued store.issued) run.id run.workspaceId run.payloadHash number
        snapshot] := rfl

theorem Store.mem_commitRun {store : Store} {run other : Run}
    (found : store.run? run.id = some run) {now : Instant} {number : Nat} {snapshot : Snapshot} :
    other ∈ (store.commitRun now run number snapshot).runs ↔
      other = Commit.row now ⟨.issued store.issued, number⟩ run ∨
        other ∈ store.runs ∧ other.id ≠ run.id :=
  mem_putRun found

namespace Commit

def seeing (head : Option Head) (now : Instant) (id : RowId) (workspaceId payloadHash : String)
    (snapshot : Snapshot) : Transaction Commit := do
  match ← standing id workspaceId payloadHash with
  | .done commit => return commit
  | .ready run =>
      Transaction.begin
      after head now run workspaceId payloadHash snapshot

inductive Outcome (seen : Option Head) (now : Instant) (id : RowId)
    (workspaceId payloadHash : String) (snapshot : Snapshot) (store : Store) :
    Commit → Store → Prop
  | done (run : Run) (linkage : Linkage) : store.run? id = some run →
      run.status = .succeeded → run.linkage? = some linkage →
      Outcome seen now id workspaceId payloadHash snapshot store
        ⟨id, linkage, run.attempts⟩ store
  | made (run : Run) (number : Nat) : store.run? id = some run →
      run.workspaceId = workspaceId → run.payloadHash = payloadHash →
      run.status = .processing → nextNumber seen = number →
      store.version? workspaceId number = none →
      Outcome seen now id workspaceId payloadHash snapshot store
        ⟨id, ⟨.issued store.issued, number⟩, run.attempts⟩
        (store.commitRun now run number snapshot)

inductive Refusal (id : RowId) (workspaceId payloadHash : String) (store : Store) :
    StoreError → Prop
  | unknownRun : store.run? id = none →
      Refusal id workspaceId payloadHash store (.ingestion .unknownRun)
  | otherWorkspace (run : Run) : store.run? id = some run → run.workspaceId ≠ workspaceId →
      Refusal id workspaceId payloadHash store (.ingestion .otherWorkspace)
  | otherPayload (run : Run) : store.run? id = some run → run.payloadHash ≠ payloadHash →
      Refusal id workspaceId payloadHash store (.ingestion .otherPayload)
  | wrongState (run : Run) : store.run? id = some run → run.status = .failed →
      Refusal id workspaceId payloadHash store (.ingestion (.wrongState run.status.text))
  | missingLinkage (run : Run) : store.run? id = some run → run.status = .succeeded →
      run.linkage? = none → Refusal id workspaceId payloadHash store (.ingestion .missingLinkage)
  | versionTaken (number : Int) :
      Refusal id workspaceId payloadHash store (.versionTaken (some workspaceId) (some number))

theorem standing_ensures (store : Store) (id : RowId) (workspaceId payloadHash : String) :
    Ensures (standing id workspaceId payloadHash) store
      (fun standing changed => changed = store ∧ ∃ run, store.run? id = some run ∧
        run.workspaceId = workspaceId ∧ run.payloadHash = payloadHash ∧
        (standing = .ready run ∧ run.status = .processing ∨
          ∃ linkage, standing = .done ⟨id, linkage, run.attempts⟩ ∧
            run.status = .succeeded ∧ run.linkage? = some linkage))
      (Refusal id workspaceId payloadHash store) := by
  refine (findRun_ensures id).bind_found ?_
  cases found : store.run? id with
  | none => exact .throw (.unknownRun found)
  | some run =>
      have same := (Store.mem_of_run? found).2
      refine .ite (fun other => .throw (.otherWorkspace run found other)) fun workspace => ?_
      refine .ite (fun other => .throw (.otherPayload run found other)) fun payload => ?_
      have workspace := Decidable.not_not.mp workspace
      have payload := Decidable.not_not.mp payload
      cases status : run.status with
      | processing =>
          exact .pure ⟨rfl, run, rfl, workspace, payload, .inl ⟨rfl, status⟩⟩
      | succeeded =>
          refine (Run.linkage_ensures fun missing =>
            .missingLinkage run found status missing).bind ?_
          rintro linkage left ⟨names, rfl⟩
          exact .pure ⟨rfl, run, rfl, workspace, payload,
            .inr ⟨linkage, by rw [same], status, names⟩⟩
      | failed => exact .throw (status ▸ .wrongState run found status)

theorem outcome_seeing (store : Store) (now : Instant) (id : RowId)
    (workspaceId payloadHash : String) (snapshot : Snapshot) (faults : Faults) :
    (seeing (store.head? workspaceId) now id workspaceId payloadHash snapshot).outcome store
        faults =
      (make now id workspaceId payloadHash snapshot).outcome store faults := by
  rw [seeing, make, outcome_bind, outcome_bind]
  have agreed := standing_ensures store id workspaceId payloadHash faults
  generalize (standing id workspaceId payloadHash).outcome store faults = result at agreed ⊢
  rcases result with ⟨error | ⟨made, changed⟩, left⟩
  · rfl
  · rcases agreed with ⟨⟨rfl, run, found, -, -, ⟨rfl, -⟩ | ⟨linkage, rfl, -⟩⟩, -⟩
    · dsimp only
      rw [outcome_bind, outcome_bind, findHead, outcome_bind, outcome_begin]
      cases left.upcoming with
      | nil => rfl
      | cons struck rest => cases struck <;> rfl
    · rfl

theorem execute_seeing (store : Store) (now : Instant) (id : RowId)
    (workspaceId payloadHash : String) (snapshot : Snapshot) (faults : Faults) :
    (seeing (store.head? workspaceId) now id workspaceId payloadHash snapshot).execute store
        faults =
      (make now id workspaceId payloadHash snapshot).execute store faults := by
  rw [execute_eq, execute_eq, outcome_bind, outcome_bind, outcome_seeing]

theorem after_ensures {store : Store} (sound : store.Sound) {seen : Option Head} {now : Instant}
    {run : Run} {snapshot : Snapshot} (found : store.run? run.id = some run)
    (processing : run.status = .processing) :
    Ensures (after seen now run run.workspaceId run.payloadHash snapshot) store
      (Outcome seen now run.id run.workspaceId run.payloadHash snapshot store)
      (Refusal run.id run.workspaceId run.payloadHash store) := by
  refine (insertVersion_ensures (.versionTaken (nextNumber seen))).bind ?_
  rintro version changed ⟨row, free, rfl⟩
  rcases eq_version_of_toVersion row with ⟨number, isNumber, rfl⟩
  rw [isNumber]
  have stored : ((store.addVersion (version (.issued store.issued) run.id run.workspaceId
      run.payloadHash number snapshot)).putHead ⟨run.workspaceId, number⟩).run? run.id =
        some run := found
  have row := toRun_succeed now ⟨.issued store.issued, number⟩
    (sound.attempts run (Store.mem_of_run? found).1)
  refine (upsertHead_ensures run.workspaceId number).bind_discard ?_
  exact (patchRun_ensures stored row rfl).bind_discard
    (.pure (.made run number found rfl rfl processing isNumber free))

theorem seeing_ensures {store : Store} (sound : store.Sound) (seen : Option Head) (now : Instant)
    (id : RowId) (workspaceId payloadHash : String) (snapshot : Snapshot) :
    Ensures (seeing seen now id workspaceId payloadHash snapshot) store
      (Outcome seen now id workspaceId payloadHash snapshot store)
      (Refusal id workspaceId payloadHash store) := by
  refine (standing_ensures store id workspaceId payloadHash).bind ?_
  rintro _ changed ⟨rfl, run, found, rfl, rfl, ⟨rfl, processing⟩ | ⟨linkage, rfl, status, names⟩⟩
  · have same := (Store.mem_of_run? found).2
    subst same
    exact begin_ensures.bind_kept fun _ => after_ensures sound found processing
  · exact .pure (.done run linkage found status names)

/-- The commit of a run in progress makes a version of it, unless the number is taken. -/
theorem seeing_processing {store : Store} (sound : store.Sound) (run : Run)
    (found : store.run? run.id = some run) (processing : run.status = .processing)
    (seen : Option Head) (now : Instant) (snapshot : Snapshot) :
    Ensures (seeing seen now run.id run.workspaceId run.payloadHash snapshot) store
      (fun made left => ∃ number, store.version? run.workspaceId number = none ∧
        made = ⟨run.id, ⟨.issued store.issued, number⟩, run.attempts⟩ ∧
        left = store.commitRun now run number snapshot)
      (fun error => ∃ number, error = .versionTaken (some run.workspaceId) (some number)) := by
  refine (seeing_ensures sound seen now run.id run.workspaceId run.payloadHash snapshot).mono
    (fun made left outcome => ?_) fun error refusal => ?_
  · cases outcome with
    | done other linkage stored succeeded =>
        rw [found] at stored
        cases stored
        rw [processing] at succeeded
        cases succeeded
    | made other number stored workspace payload processing isNumber free =>
        rw [found] at stored
        cases stored
        exact ⟨number, free, rfl, rfl⟩
  · cases refusal with
    | versionTaken number => exact ⟨number, rfl⟩
    | unknownRun missing =>
        rw [found] at missing
        cases missing
    | otherWorkspace other stored different | otherPayload other stored different =>
        rw [found] at stored
        cases stored
        exact absurd rfl different
    | wrongState other stored status | missingLinkage other stored status =>
        rw [found] at stored
        cases stored
        rw [processing] at status
        cases status

end Commit

/-! ## Recording a failure -/

namespace Failure

inductive Outcome (now : Instant) (id : RowId) (failure : Failure) (store : Store) :
    RunStatus → Store → Prop
  | succeeded (run : Run) : store.run? id = some run → run.status = .succeeded →
      Outcome now id failure store .succeeded store
  | failed (run : Run) : store.run? id = some run → run.status ≠ .succeeded →
      Outcome now id failure store .failed (store.putRun (failure.row now run))

inductive Refusal (id : RowId) (store : Store) : StoreError → Prop
  | unknownRun : store.run? id = none → Refusal id store (.ingestion .unknownRun)

theorem save_ensures {store : Store} (sound : store.Sound) (now : Instant) (id : RowId)
    (failure : Failure) :
    Ensures (failure.save now id) store (Outcome now id failure store) (Refusal id store) := by
  refine (findRun_ensures id).bind_found ?_
  cases found : store.run? id with
  | none => exact .throw (.unknownRun found)
  | some run =>
      have parts := Store.mem_of_run? found
      have attempts := sound.attempts run parts.1
      have row := toRun_mark now failure attempts
      rw [parts.2] at row
      have patched : run.status ≠ .succeeded →
          Ensures (do discard (patchRun id (failure.mark now)); return .failed) store
            (Outcome now id failure store) (Refusal id store) := fun status =>
        (patchRun_ensures found row rfl).bind_discard (.pure (.failed run found status))
      cases status : run.status with
      | processing => simpa only [status] using patched (by simp [status])
      | succeeded => simpa only [status] using .pure (.succeeded run found status)
      | failed => simpa only [status] using patched (by simp [status])

theorem save_processing {store : Store} (sound : store.Sound) (run : Run)
    (found : store.run? run.id = some run) (processing : run.status = .processing)
    (now : Instant) (failure : Failure) :
    Ensures (failure.save now run.id) store
      (fun status left => status = .failed ∧ left = store.putRun (failure.row now run))
      fun _ => False := by
  refine (save_ensures sound now run.id failure).mono (fun status left outcome => ?_)
    fun error refusal => ?_
  · cases outcome with
    | succeeded other stored succeeded =>
        rw [found] at stored
        cases stored
        rw [processing] at succeeded
        cases succeeded
    | failed other stored =>
        rw [found] at stored
        cases stored
        exact ⟨rfl, rfl⟩
  · rcases refusal with ⟨missing⟩
    rw [found] at missing
    cases missing

end Failure

end WorkspaceGraph
