import WorkspaceGraph.Proofs.Ingestion.Actions
import WorkspaceGraph.Proofs.Store.Entries
/-!
What the actions of the service keep to if nobody else acts meanwhile. Anything may go wrong in
their transactions, only not with an ingestion error: such errors are the service's own.
-/

namespace WorkspaceGraph

def Faults.Plain (faults : Faults) : Prop := ∀ error, ¬ faults.Raises (.ingestion error)

def StoreError.Foreign (error : StoreError) : Prop := ∀ own, error ≠ .ingestion own

theorem Faults.Plain.foreign {faults : Faults} (plain : faults.Plain) {error : StoreError}
    (raised : faults.Raises error) : error.Foreign := by
  rintro own rfl
  exact plain own raised

theorem Faults.Plain.within {left faults : Faults} (plain : faults.Plain)
    (within : left.Within faults) : left.Plain :=
  fun error raised => plain error (within _ raised)

namespace Service

variable {α β : Type}

/-! ## Contracts -/

def Agreed (post : α → Store → Prop) (refusal : StoreError → Store → Prop) :
    Except StoreError α × World → Prop
  | (.ok value, left) => post value left.store ∧ left.faults.Plain
  | (.error error, left) => refusal error left.store ∧ left.faults.Plain

/-- Started on the store, the action returns or fails as agreed, and leaves the store so. -/
def Ensures (action : Service α) (store : Store) (post : α → Store → Prop)
    (refusal : StoreError → Store → Prop) : Prop :=
  ∀ faults log, faults.Plain → Agreed post refusal (action.outcome ⟨store, faults, log⟩)

namespace Ensures

variable {store : Store} {post : α → Store → Prop} {refusal : StoreError → Store → Prop}

theorem pure {value : α} (holds : post value store) :
    Ensures (Pure.pure value) store post refusal :=
  fun _ _ plain => ⟨holds, plain⟩

theorem throw {error : StoreError} (holds : refusal error store) :
    Ensures (MonadExcept.throw error : Service α) store post refusal :=
  fun _ _ plain => ⟨holds, plain⟩

theorem bind {action : Service α} {next : α → Service β} {middle : α → Store → Prop}
    {post : β → Store → Prop} (first : Ensures action store middle refusal)
    (rest : ∀ value changed, middle value changed → Ensures (next value) changed post refusal) :
    Ensures (action >>= next) store post refusal := by
  intro faults log plain
  have agreed := first faults log plain
  rw [outcome_bind]
  rcases result : action.outcome ⟨store, faults, log⟩ with ⟨error | value, left⟩
  · rw [result] at agreed
    exact agreed
  · rw [result] at agreed
    exact rest value left.store agreed.1 left.faults left.log agreed.2

theorem bind_discard {action : Service α} {next : PUnit → Service β} {middle : α → Store → Prop}
    {post : β → Store → Prop} (first : Ensures action store middle refusal)
    (rest : ∀ value changed, middle value changed → Ensures (next ⟨⟩) changed post refusal) :
    Ensures (discard action >>= next) store post refusal := by
  have same : discard action = action >>= fun _ => Pure.pure PUnit.unit := rfl
  have discarded : Ensures (action >>= fun _ => Pure.pure PUnit.unit) store
      (fun _ changed => ∃ value, middle value changed) refusal :=
    first.bind fun value _ holds => .pure ⟨value, holds⟩
  rw [same]
  refine discarded.bind ?_
  rintro _ changed ⟨value, holds⟩
  exact rest value changed holds

theorem bind_note {entry : Log.Entry} {next : PUnit → Service α}
    (rest : Ensures (next ⟨⟩) store post refusal) :
    Ensures (note entry >>= next) store post refusal :=
  fun faults log plain => rest faults (log ++ [entry]) plain

theorem recover {action : Service α} {handle : StoreError → Service α}
    {narrow : StoreError → Store → Prop} (first : Ensures action store post narrow)
    (rest : ∀ error left, narrow error left → Ensures (handle error) left post refusal) :
    Ensures (tryCatch action handle) store post refusal := by
  intro faults log plain
  have agreed := first faults log plain
  rw [outcome_tryCatch]
  rcases result : action.outcome ⟨store, faults, log⟩ with ⟨error | value, left⟩
  · rw [result] at agreed
    exact rest error left.store agreed.1 left.faults left.log agreed.2
  · rw [result] at agreed
    exact agreed

theorem mono {action : Service α} {strong : α → Store → Prop}
    {narrow : StoreError → Store → Prop} (first : Ensures action store strong narrow)
    (weaker : ∀ value changed, strong value changed → post value changed)
    (wider : ∀ error left, narrow error left → refusal error left) :
    Ensures action store post refusal := by
  intro faults log plain
  have agreed := first faults log plain
  rcases result : action.outcome ⟨store, faults, log⟩ with ⟨error | value, left⟩
  · rw [result] at agreed
    exact ⟨wider error left.store agreed.1, agreed.2⟩
  · rw [result] at agreed
    exact ⟨weaker value left.store agreed.1, agreed.2⟩

theorem transact {body : Transaction α} {own : StoreError → Prop}
    (first : Transaction.Ensures body store post own) :
    Ensures (Service.transact body) store post
      fun error left => left = store ∧ (error.Foreign ∨ own error) := by
  intro faults log plain
  have agreed := first.committed faults
  rw [outcome_transact, Transaction.execute_eq]
  generalize Transaction.outcome _ store faults = result at agreed ⊢
  rcases result with ⟨error | ⟨value, changed⟩, left⟩
  · exact ⟨⟨rfl, agreed.1.imp_left plain.foreign⟩, plain.within agreed.2⟩
  · exact ⟨agreed.1, plain.within agreed.2⟩

end Ensures

/-! ## Acquiring -/

variable {store : Store}

theorem acquire_ensures (sound : store.Sound) (now : Instant) (submission : Submission) :
    Ensures (acquire now submission) store (Acquisition.Outcome now submission store)
      fun error left => left = store ∧
        (error.Foreign ∨ Acquisition.Refusal submission store error) := by
  have attempt : Ensures (transact (Acquisition.make now submission)) store
      (Acquisition.Outcome now submission store) fun error left => left = store ∧
        (error.Foreign ∨ Acquisition.Refusal submission store error) :=
    .transact (Acquisition.make_ensures sound now submission)
  rw [acquire]
  refine attempt.recover ?_
  rintro error left ⟨rfl, reason⟩
  cases error with
  | keyTaken key => exact .bind_note attempt
  | _ => exact .throw ⟨rfl, reason⟩

/-! ## Committing -/

/-- With the head there is, a run in progress makes a version, unless something goes wrong. -/
theorem make_ensures (sound : store.Sound) {run : Run} (found : store.run? run.id = some run)
    (processing : run.status = .processing) (now : Instant) (snapshot : Snapshot) :
    Transaction.Ensures (Commit.make now run.id run.workspaceId run.payloadHash snapshot) store
      (fun made left => ∃ number : Nat,
        made = ⟨run.id, ⟨.issued store.issued, number⟩, run.attempts⟩ ∧
        left = store.commitRun now run number snapshot)
      StoreError.Foreign := by
  intro faults
  rw [← Commit.outcome_seeing]
  refine ((Commit.seeing_processing sound run found processing _ now snapshot).mono ?_ ?_) faults
  · rintro made left ⟨number, -, isMade, isLeft⟩
    exact ⟨number, isMade, isLeft⟩
  · rintro error ⟨number, rfl⟩ own equal
    cases equal

theorem commitFrom_ensures {commit : Transaction Commit} {post : Commit → Store → Prop}
    (first : Transaction.Ensures commit store post StoreError.Foreign)
    (lost : Option Int → Nat → Log.Entry) (tried left : Nat) :
    Ensures (commitFrom commit lost tried left) store post
      fun error left => left = store ∧ error.Foreign := by
  have attempt : Ensures (transact commit) store post
      fun error left => left = store ∧ error.Foreign :=
    (Ensures.transact first).mono (fun _ _ holds => holds)
      fun error left reason => ⟨reason.1, reason.2.elim id id⟩
  induction left generalizing tried with
  | zero => exact attempt
  | succ left induction =>
      rw [commitFrom]
      refine attempt.recover ?_
      rintro error left ⟨rfl, foreign⟩
      cases error with
      | versionTaken workspaceId version => exact .bind_note (induction (tried + 1))
      | _ => exact .throw ⟨rfl, foreign⟩

/-- What is answered if a submission could not be committed for its run. The row says so, unless
that failed as well. -/
def Failed (now : Instant) (store : Store) (run : Run) (error : StoreError) (left : Store) :
    Prop :=
  (left = store ∨ ∃ failure, left = store.putRun (Failure.row now failure run)) ∧
    (error.Foreign ∨ ∃ code message, error = .ingestion (.attemptFailed code message))

theorem answerTo_foreign {error : StoreError} (foreign : error.Foreign) (failure : Failure) :
    answerTo error failure = .ingestion (.attemptFailed failure.code failure.message) := by
  cases error with
  | ingestion own => exact absurd rfl (foreign own)
  | _ => rfl

theorem finish_ensures (sound : store.Sound) {run : Run} {submission : Submission}
    (found : store.run? run.id = some run) (processing : run.status = .processing)
    (workspace : run.workspaceId = submission.workspaceId)
    (payload : run.payloadHash = submission.payloadHash) (limits : Limits) (now : Instant) :
    Ensures (finish limits now submission run.id) store
      (fun receipt left => ∃ number : Nat,
        receipt = ⟨run.id, false, some ⟨.issued store.issued, number⟩, run.attempts⟩ ∧
        left = store.commitRun now run number submission.snapshot)
      (Failed now store run) := by
  rw [finish, commit, ← workspace, ← payload]
  refine Ensures.bind (Ensures.recover
    (commitFrom_ensures (make_ensures sound found processing now submission.snapshot) _ _ _)
    ?_) ?_
  · rintro error left ⟨rfl, foreign⟩
    -- Recording the failure may fail as well, and then nothing was written.
    have recorded : Ensures (markFailed now run.id (.ofError error)) left
        (fun _ last => last = left.putRun (Failure.row now (.ofError error) run))
        (Failed now left run) :=
      (Ensures.transact (Failure.save_processing sound run found processing now _)).mono
        (fun _ _ holds => holds.2)
        fun _ last reason => ⟨.inl reason.1, .inl (reason.2.elim id False.elim)⟩
    refine .bind_note (recorded.bind_discard ?_)
    rintro status last rfl
    exact .throw ⟨.inr ⟨_, rfl⟩, .inr ⟨_, _, answerTo_foreign foreign _⟩⟩
  · rintro made left ⟨number, rfl, rfl⟩
    exact .bind_note (.pure ⟨number, rfl, rfl⟩)

end Service

/-! ## Ingesting -/

/-- The run was entered for a submission, which has it in progress. Nothing else has changed. -/
structure Run.Acquired (run : Run) (submission : Submission) (store middle : Store) : Prop where
  sound : middle.Sound
  versions : middle.versions = store.versions
  heads : middle.heads = store.heads
  found : middle.run? run.id = some run
  processing : run.status = .processing
  workspace : run.workspaceId = submission.workspaceId
  payload : run.payloadHash = submission.payloadHash
  entered : Store.Entered submission.key store.runs middle.runs run

structure Submission.Committed (submission : Submission) (receipt : Receipt) (store left : Store)
    (version : Version) (run : Run) : Prop where
  receipt : receipt = ⟨run.id, false, some ⟨version.id, version.number⟩, run.attempts⟩
  versions : left.versions = store.versions ++ [version]
  origin : version.runId = run.id
  workspaceId : version.workspaceId = submission.workspaceId
  payloadHash : version.payloadHash = submission.payloadHash
  projects : version.projects = submission.snapshot.projects
  components : version.components = submission.snapshot.components
  edges : version.edges = submission.snapshot.edges
  heads : left.heads = Transaction.setHead ⟨version.workspaceId, version.number⟩ store.heads
  entered : Store.Entered submission.key store.runs left.runs run
  succeeded : run.status = .succeeded

/-- A submission that was not committed left at most its run. -/
structure Submission.Abandoned (submission : Submission) (store left : Store) : Prop where
  versions : left.versions = store.versions
  heads : left.heads = store.heads
  runs : left.runs = store.runs ∨ ∃ run, Store.Entered submission.key store.runs left.runs run

theorem Submission.Abandoned.refl (submission : Submission) (store : Store) :
    submission.Abandoned store store :=
  ⟨rfl, rfl, .inl rfl⟩

namespace Run.Acquired

variable {run : Run} {submission : Submission} {store middle : Store}

theorem of_outcome {now : Instant} {id : RowId} {attempts : Nat} (sound : store.Sound)
    (outcome : Acquisition.Outcome now submission store (.acquired id attempts) middle) :
    Run.Acquired (Acquisition.row id attempts now submission) submission store middle := by
  cases outcome with
  | first fresh =>
      exact ⟨sound.addRun rfl fresh (Nat.le_refl 1), rfl, rfl, sound.run?_addRun rfl, rfl, rfl, rfl,
        .addRun rfl fresh⟩
  | again old found same failed =>
      have parts := Store.mem_of_runWithKey? found
      have stored := sound.run?_of_mem parts.1
      have positive : 1 ≤ old.attempts + 1 := Nat.le_add_left 1 _
      exact ⟨sound.putRun stored parts.2.symm positive, rfl, rfl,
        sound.run?_putRun stored parts.2.symm positive, rfl, rfl, rfl,
        .putRun sound stored parts.2 rfl⟩

theorem entered_putRun (acquired : run.Acquired submission store middle) (changed : Run)
    (id : changed.id = run.id) (key : changed.key = run.key) :
    Store.Entered submission.key store.runs (middle.putRun changed).runs changed := by
  have found : middle.run? changed.id = some run := id ▸ acquired.found
  have isOfKey := acquired.entered.isOfKey
  have put := Store.Entered.putRun acquired.sound found isOfKey (key.trans isOfKey)
  exact acquired.entered.again id (key.trans isOfKey) put.isEntered

theorem committed (acquired : run.Acquired submission store middle) (now : Instant)
    (number : Nat) :
    submission.Committed ⟨run.id, false, some ⟨.issued middle.issued, number⟩, run.attempts⟩ store
      (middle.commitRun now run number submission.snapshot)
      (Commit.version (.issued middle.issued) run.id run.workspaceId run.payloadHash number
        submission.snapshot)
      (Commit.row now ⟨.issued middle.issued, number⟩ run) where
  receipt := rfl
  versions := by rw [Store.commitRun_versions, acquired.versions]
  origin := rfl
  workspaceId := acquired.workspace
  payloadHash := acquired.payload
  projects := rfl
  components := rfl
  edges := rfl
  heads := by rw [← acquired.heads]; rfl
  entered := acquired.entered_putRun (Commit.row now ⟨.issued middle.issued, number⟩ run) rfl rfl
  succeeded := rfl

theorem abandoned (acquired : run.Acquired submission store middle) {now : Instant}
    {error : StoreError} {left : Store} (failed : Service.Failed now middle run error left) :
    submission.Abandoned store left := by
  rcases failed.1 with rfl | ⟨failure, rfl⟩
  · exact ⟨acquired.versions, acquired.heads, .inr ⟨run, acquired.entered⟩⟩
  · exact ⟨acquired.versions, acquired.heads, .inr ⟨_, acquired.entered_putRun _ rfl rfl⟩⟩

end Run.Acquired

namespace Service

inductive Ingested (submission : Submission) (store : Store) (receipt : Receipt) : Store → Prop
  | found : receipt.deduplicated = true → Ingested submission store receipt store
  | committed (left : Store) (version : Version) (run : Run) :
      submission.Committed receipt store left version run → Ingested submission store receipt left

inductive Unanswered (submission : Submission) (store : Store) : StoreError → Store → Prop
  | refused (error : IngestionError) : error.status = 409 →
      Unanswered submission store (.ingestion error) store
  | failed (error : IngestionError) (left : Store) : error.status = 500 →
      submission.Abandoned store left → Unanswered submission store (.ingestion error) left
  | broke (error : StoreError) (left : Store) : error.Foreign →
      submission.Abandoned store left → Unanswered submission store error left

theorem status_attemptFailed (code message : String) :
    (IngestionError.attemptFailed code message).status = 500 := by
  unfold IngestionError.attemptFailed IngestionError.withCode
  split <;> rfl

theorem Unanswered.of_refusal {submission : Submission} {store : Store} {error : StoreError}
    (reason : error.Foreign ∨ Acquisition.Refusal submission store error) :
    Unanswered submission store error store := by
  rcases reason with foreign | refusal
  · exact .broke error store foreign (.refl submission store)
  · cases refusal with
    | keyReused run found different => exact .refused _ rfl
    | keyTaken run found => exact .broke _ store (fun own equal => by cases equal) (.refl _ _)
    | missingLinkage run found succeeded missing => exact .failed _ store rfl (.refl _ _)

theorem ingestSubmission_ensures {store : Store} (sound : store.Sound) (limits : Limits)
    (now : Instant) (submission : Submission) :
    Ensures (ingestSubmission limits now submission) store (Ingested submission store)
      (Unanswered submission store) := by
  rw [ingestSubmission]
  refine Ensures.bind ((acquire_ensures sound now submission).mono (fun _ _ holds => holds) ?_) ?_
  · rintro error left ⟨rfl, reason⟩
    exact .of_refusal reason
  · intro acquisition middle outcome
    cases acquisition with
    | acquired id attempts =>
        have acquired := Run.Acquired.of_outcome sound outcome
        refine (finish_ensures acquired.sound acquired.found acquired.processing
          acquired.workspace acquired.payload limits now).mono ?_ ?_
        · rintro receipt left ⟨number, rfl, rfl⟩
          exact .committed _ _ _ (acquired.committed now number)
        · intro error left failed
          have abandoned := acquired.abandoned failed
          rcases failed.2 with foreign | ⟨code, message, rfl⟩
          · exact .broke error left foreign abandoned
          · exact .failed _ left (status_attemptFailed code message) abandoned
    | deduplicated id linkage attempts =>
        cases outcome
        exact .bind_note (.pure (.found rfl))
    | inFlight id attempts =>
        cases outcome
        exact .bind_note (.pure (.found rfl))

end Service

end WorkspaceGraph
