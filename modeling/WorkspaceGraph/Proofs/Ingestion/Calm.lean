import WorkspaceGraph.Proofs.Ingestion.Conduct
import WorkspaceGraph.Proofs.Interleaving.History
import WorkspaceGraph.Proofs.Interleaving.Linkage
import WorkspaceGraph.Proofs.Interleaving.Uninterrupted
import WorkspaceGraph.Proofs.Snapshot.Edges
import WorkspaceGraph.Proofs.Submission.Preparation
/-!
What comes of an ingestion if nothing goes wrong and nobody else acts meanwhile. There is one thing
only that it can come to, and no race is lost.
-/

namespace WorkspaceGraph

namespace Transaction

variable {α β : Type} {store middle changed : Store}

/-! ## Transactions -/

/-- If nothing goes wrong, the transaction returns the value and leaves the store so. -/
def Gives (body : Transaction α) (store : Store) (value : α) (changed : Store) : Prop :=
  body.outcome store .none = (.ok (value, changed), .none)

namespace Gives

theorem pure {value : α} : Gives (Pure.pure value) store value store := rfl

theorem bind {body : Transaction α} {next : α → Transaction β} {value : α} {result : β}
    (first : Gives body store value middle) (rest : Gives (next value) middle result changed) :
    Gives (body >>= next) store result changed := by
  rw [Gives, outcome_bind, first]
  exact rest

theorem bind_discard {body : Transaction α} {next : PUnit → Transaction β} {value : α} {result : β}
    (first : Gives body store value middle) (rest : Gives (next ⟨⟩) middle result changed) :
    Gives (discard body >>= next) store result changed := by
  have same : discard body = body >>= fun _ => Pure.pure PUnit.unit := rfl
  have discarded : Gives (body >>= fun _ => Pure.pure PUnit.unit) store ⟨⟩ middle :=
    first.bind pure
  rw [same]
  exact discarded.bind rest

theorem outcome_eq {body : Transaction α} {next : α → Transaction β} {value : α}
    (first : Gives body store value middle) :
    (body >>= next).outcome store .none = (next value).outcome middle .none := by
  rw [outcome_bind, first]

end Gives

theorem begin_gives : Gives begin store () store := rfl

theorem get_gives : Gives (getThe Store) store store store := rfl

theorem findRun_gives (id : RowId) : Gives (findRun id) store (store.run? id) store := rfl

theorem findRunWithKey_gives (key : String) :
    Gives (findRunWithKey key) store (store.runWithKey? key) store := rfl

theorem findHead_gives (workspaceId : String) :
    Gives (findHead workspaceId) store (store.head? workspaceId) store := rfl

theorem strikeVersion_gives (workspaceId : Option String) (number : Option Int) :
    Gives (strikeVersion workspaceId number) store () store := rfl

theorem upsertHead_gives (workspaceId : String) (number : Int) :
    Gives (upsertHead (some workspaceId) (some number)) store ⟨workspaceId, number⟩
      (store.putHead ⟨workspaceId, number⟩) := rfl

theorem insertRun_gives {draft : RunDraft} {run : Run}
    (row : draft.withDefaults.toRun (.issued store.issued) = .ok run)
    (fresh : store.runWithKey? run.key = none) :
    Gives (insertRun draft) store run (store.addRun run) := by
  refine begin_gives.bind (get_gives.bind ?_)
  simp only [row, fresh]
  rfl

theorem patchRun_gives {id : RowId} {change : RunDraft → RunDraft} {run new : Run}
    (found : store.run? id = some run)
    (row : (change (RunDraft.ofRun run)).toRun id = .ok new) (key : new.key = run.key) :
    Gives (patchRun id change) store (some new) (store.putRun new) := by
  refine begin_gives.bind (get_gives.bind ?_)
  simp only [found, row, key, ne_eq, not_true_eq_false, decide_false, Bool.false_and]
  rfl

theorem insertVersion_gives {draft : VersionDraft} {snapshot : Snapshot} {version : Version}
    (row : draft.toVersion (.issued store.issued) snapshot = .ok version)
    (free : store.version? version.workspaceId version.number = none) :
    Gives (insertVersion draft snapshot) store version (store.addVersion version) := by
  refine begin_gives.bind ((strikeVersion_gives ..).bind (get_gives.bind ?_))
  simp only [row, free]
  rfl

theorem outcome_insertVersion_taken {draft : VersionDraft} {snapshot : Snapshot}
    (taken : ∀ version, draft.toVersion (.issued store.issued) snapshot = .ok version →
      store.version? version.workspaceId version.number ≠ none) :
    (insertVersion draft snapshot).outcome store .none =
      (.error (.versionTaken draft.workspaceId draft.number), .none) := by
  rw [insertVersion, begin_gives.outcome_eq, (strikeVersion_gives _ _).outcome_eq,
    get_gives.outcome_eq]
  cases row : draft.toVersion (.issued store.issued) snapshot with
  | error violation => rfl
  | ok version =>
      have there := Option.isSome_iff_ne_none.mpr (taken version row)
      simp only [there, if_true]
      rfl

theorem Gives.execute {body : Transaction α} {value : α} (gives : Gives body store value changed) :
    body.execute store .none = (.ok value, changed, .none) := by
  have committed : Gives (do let value ← body; begin; return value) store value changed :=
    gives.bind (begin_gives.bind .pure)
  rw [execute_eq, committed]

end Transaction

open Transaction

def Snapshot.Loopless (snapshot : Snapshot) : Prop :=
  ∀ edge ∈ snapshot.edges, edge.source ≠ edge.target

theorem Snapshot.loopless_canonical (snapshot : Snapshot) : snapshot.canonical.Loopless :=
  fun _ member => (mem_canonicalEdges.mp member).2

theorem Submission.loopless_of_prepare {limits : Limits} {request : Request}
    {submission : Submission} (prepared : prepare limits request = .ok submission) :
    submission.snapshot.Loopless := by
  rw [(prepared_of_prepare prepared).snapshot]
  exact request.snapshot.loopless_canonical

namespace Acquisition

variable {store : Store} {now : Instant} {submission : Submission}

theorem make_gives (sound : store.Sound) {acquisition : Acquisition} {changed : Store}
    (outcome : Outcome now submission store acquisition changed) :
    Gives (make now submission) store acquisition changed := by
  refine (findRunWithKey_gives submission.key).bind ?_
  cases outcome with
  | first fresh =>
      simp only [fresh, Decision.make]
      exact (insertRun_gives (toRun_first _ now submission) fresh).bind .pure
  | again run found same failed =>
      have parts := Store.mem_of_runWithKey? found
      have row := toRun_another run.id now parts.2 (Nat.le_add_left 1 run.attempts)
      simp only [found, Decision.make, same, if_true, failed, Decision.ofStatus]
      exact (patchRun_gives (sound.run?_of_mem parts.1) row parts.2.symm).bind_discard .pure
  | deduplicated run linkage found same succeeded names =>
      simp only [found, Decision.make, same, if_true, succeeded, Decision.ofStatus, Run.linkage,
        names]
      exact Gives.pure.bind .pure
  | inFlight run found same processing =>
      simp only [found, Decision.make, same, if_true, processing, Decision.ofStatus]
      exact .pure

theorem execute_refused {run : Run} (found : store.runWithKey? submission.key = some run)
    (different : run.payloadHash ≠ submission.payloadHash) :
    (make now submission).execute store .none =
      (.error (.ingestion .keyReused), store, .none) := by
  rw [execute_eq, outcome_bind, make, outcome_bind, findRunWithKey_gives]
  simp only [found, Decision.make, different, if_false]
  rfl

/-- Every submission that is not refused has an outcome. -/
theorem exists_outcome (linked : store.Linked) (now : Instant)
    (kept : ∀ run, store.runWithKey? submission.key = some run →
      run.payloadHash = submission.payloadHash) :
    ∃ acquisition changed, Outcome now submission store acquisition changed := by
  cases found : store.runWithKey? submission.key with
  | none => exact ⟨_, _, .first found⟩
  | some run =>
      have same := kept run found
      cases status : run.status with
      | processing => exact ⟨_, _, .inFlight run found same status⟩
      | failed => exact ⟨_, _, .again run found same status⟩
      | succeeded =>
          have named := linked.linkage?_ne_none (Store.mem_of_runWithKey? found).1 status
          rcases Option.ne_none_iff_exists'.mp named with ⟨linkage, names⟩
          exact ⟨_, _, .deduplicated run linkage found same status names⟩

end Acquisition

theorem Commit.standing_gives {store : Store} {run : Run} (found : store.run? run.id = some run)
    (processing : run.status = .processing) :
    Gives (standing run.id run.workspaceId run.payloadHash) store (.ready run) store := by
  refine (findRun_gives run.id).bind ?_
  simp only [found, ne_eq, not_true_eq_false, if_false, processing]
  exact .pure

theorem Commit.make_gives {store : Store} (sound : store.Sound) (gapless : store.Gapless)
    {run : Run} (found : store.run? run.id = some run) (processing : run.status = .processing)
    (now : Instant) {snapshot : Snapshot} (loopless : snapshot.Loopless) :
    let number := (store.history run.workspaceId).length + 1
    Gives (make now run.id run.workspaceId run.payloadHash snapshot) store
      ⟨run.id, ⟨.issued store.issued, number⟩, run.attempts⟩
      (store.commitRun now run number snapshot) := by
  intro number
  have next := gapless.nextNumber run.workspaceId
  have positive : 1 ≤ number := Nat.le_add_left 1 _
  have free : store.version? run.workspaceId number = none := by
    rw [Store.version?_eq_none, gapless.numbers, List.mem_range'_1]
    omega
  have stored : ((store.addVersion (version (.issued store.issued) run.id run.workspaceId
      run.payloadHash number snapshot)).putHead ⟨run.workspaceId, number⟩).run? run.id =
        some run := found
  have row := toRun_succeed now ⟨.issued store.issued, number⟩
    (sound.attempts run (Store.mem_of_run? found).1)
  refine (standing_gives found processing).bind ((findHead_gives run.workspaceId).bind ?_)
  rw [after, next]
  refine (insertVersion_gives (toVersion_versionDraft positive loopless) free).bind ?_
  refine (upsertHead_gives run.workspaceId number).bind_discard ?_
  exact (patchRun_gives stored row rfl).bind_discard .pure

namespace Service

variable {α β : Type} {store middle changed : Store}

/-- If nothing goes wrong, the action comes to the result and leaves the store so. -/
def Comes (action : Service α) (store : Store) (result : Except StoreError α)
    (changed : Store) : Prop :=
  ∀ log, ∃ noted, action.outcome ⟨store, .none, log⟩ = (result, ⟨changed, .none, noted⟩)

namespace Comes

theorem bind {action : Service α} {next : α → Service β} {value : α}
    {result : Except StoreError β} (first : Comes action store (.ok value) middle)
    (rest : Comes (next value) middle result changed) :
    Comes (action >>= next) store result changed := by
  intro log
  rcases first log with ⟨noted, came⟩
  rw [outcome_bind, came]
  exact rest noted

theorem bind_error {action : Service α} {next : α → Service β} {error : StoreError}
    (failed : Comes action store (.error error) changed) :
    Comes (action >>= next) store (.error error) changed := by
  intro log
  rcases failed log with ⟨noted, came⟩
  exact ⟨noted, by rw [outcome_bind, came]⟩

theorem bind_note {entry : Log.Entry} {next : PUnit → Service α} {result : Except StoreError α}
    (rest : Comes (next ⟨⟩) store result changed) :
    Comes (note entry >>= next) store result changed :=
  fun log => rest (log ++ [entry])

theorem pure {value : α} : Comes (Pure.pure value) store (.ok value) store :=
  fun log => ⟨log, rfl⟩

end Comes

variable {now : Instant} {submission : Submission}

theorem acquire_comes (sound : store.Sound) {acquisition : Acquisition}
    (outcome : Acquisition.Outcome now submission store acquisition changed) :
    Comes (acquire now submission) store (.ok acquisition) changed := by
  intro log
  have executed := (Acquisition.make_gives sound outcome).execute
  exact ⟨log, by rw [outcome_acquire_eq, outcome_transact, executed]⟩

theorem acquire_comes_refused {run : Run}
    (found : store.runWithKey? submission.key = some run)
    (different : run.payloadHash ≠ submission.payloadHash) :
    Comes (acquire now submission) store (.error (.ingestion .keyReused)) store := by
  intro log
  have executed := @Acquisition.execute_refused store now submission run found different
  exact ⟨log, by rw [outcome_acquire_eq, outcome_transact, executed]⟩

theorem finish_comes (sound : store.Sound) (gapless : store.Gapless) {run : Run}
    (found : store.run? run.id = some run) (processing : run.status = .processing)
    (workspace : run.workspaceId = submission.workspaceId)
    (payload : run.payloadHash = submission.payloadHash) (limits : Limits) (now : Instant)
    (loopless : submission.snapshot.Loopless) :
    let number := (store.history submission.workspaceId).length + 1
    Comes (finish limits now submission run.id) store
      (.ok ⟨run.id, false, some ⟨.issued store.issued, number⟩, run.attempts⟩)
      (store.commitRun now run number submission.snapshot) := by
  intro number log
  have executed := (Commit.make_gives sound gapless found processing now loopless).execute
  rw [workspace, payload] at executed
  have committed : (commit limits now run.id submission.workspaceId submission.payloadHash
      submission.snapshot).outcome ⟨store, .none, log⟩ =
        (.ok ⟨run.id, ⟨.issued store.issued, number⟩, run.attempts⟩,
          ⟨store.commitRun now run number submission.snapshot, .none, log⟩) := by
    rw [commit, outcome_commitFrom, outcome_transact, executed]
  rw [finish_eq]
  rcases outcome_finishWith_ok committed now submission run.id with ⟨noted, finished⟩
  exact ⟨noted, finished⟩

inductive Served (now : Instant) (submission : Submission) (store : Store) :
    Except StoreError Receipt → Store → Prop
  | committed (id : RowId) (attempts : Nat) (middle : Store) :
      Acquisition.Outcome now submission store (.acquired id attempts) middle →
      Served now submission store
        (.ok ⟨id, false, some ⟨.issued middle.issued,
          ((store.history submission.workspaceId).length + 1 : Nat)⟩, attempts⟩)
        (middle.commitRun now (Acquisition.row id attempts now submission)
          ((store.history submission.workspaceId).length + 1) submission.snapshot)
  | replayed (run : Run) (linkage : Linkage) :
      store.runWithKey? submission.key = some run →
      run.payloadHash = submission.payloadHash → run.status = .succeeded →
      run.linkage? = some linkage →
      Served now submission store (.ok ⟨run.id, true, some linkage, run.attempts⟩) store
  | toldToWait (run : Run) : store.runWithKey? submission.key = some run →
      run.payloadHash = submission.payloadHash → run.status = .processing →
      Served now submission store (.ok ⟨run.id, true, none, run.attempts⟩) store
  | refused (run : Run) : store.runWithKey? submission.key = some run →
      run.payloadHash ≠ submission.payloadHash →
      Served now submission store (.error (.ingestion .keyReused)) store

theorem ingestSubmission_served (sound : store.Sound) (linked : store.Linked)
    (gapless : store.Gapless) (limits : Limits) (now : Instant)
    (loopless : submission.snapshot.Loopless) :
    ∃ result changed, Served now submission store result changed ∧
      Comes (ingestSubmission limits now submission) store result changed := by
  by_cases clash : ∃ run, store.runWithKey? submission.key = some run ∧
      run.payloadHash ≠ submission.payloadHash
  · rcases clash with ⟨run, found, different⟩
    exact ⟨_, _, .refused run found different, (acquire_comes_refused found different).bind_error⟩
  · have kept : ∀ run, store.runWithKey? submission.key = some run →
        run.payloadHash = submission.payloadHash := fun run found =>
      Decidable.byContradiction fun different => clash ⟨run, found, different⟩
    rcases Acquisition.exists_outcome linked now kept with ⟨acquisition, middle, outcome⟩
    have acquired := acquire_comes sound outcome
    cases acquisition with
    | acquired id attempts =>
        have begun := Run.Acquired.of_outcome sound outcome
        have same := gapless.of_eq begun.versions begun.heads
        have finished := finish_comes begun.sound same.1 begun.found rfl rfl rfl limits now loopless
        have history : middle.history = store.history := by
          funext workspaceId
          rw [Store.history, begun.versions, Store.history]
        rw [history] at finished
        exact ⟨_, _, .committed id attempts middle outcome, acquired.bind finished⟩
    | deduplicated id linkage attempts =>
        cases outcome with
        | deduplicated run linkage found same succeeded names =>
            exact ⟨_, _, .replayed run linkage found same succeeded names,
              acquired.bind (.bind_note .pure)⟩
    | inFlight id attempts =>
        cases outcome with
        | inFlight run found same processing =>
            exact ⟨_, _, .toldToWait run found same processing, acquired.bind (.bind_note .pure)⟩

end Service

end WorkspaceGraph
