import WorkspaceGraph.Proofs.Database.Constraints
import WorkspaceGraph.Proofs.Ingestion.Calm
import WorkspaceGraph.Proofs.Ingestion.Code
import WorkspaceGraph.Proofs.Ingestion.Replay
import WorkspaceGraph.Proofs.Json.Texts
import WorkspaceGraph.Proofs.Text.Blank
/-!
What an ingestion writes keeps the constraints of the tables. So an insertion is refused for one
reason only: what has to be the only one is there already. No other failure passes for a lost race.
-/

namespace WorkspaceGraph

open Database

/-! ## Texts -/

namespace Submission

theorem length_of_normalizeRequired {field value text : String} {limit : Int}
    (normal : normalizeRequired field limit value = .ok text) : text.length ≤ limit := by
  rw [normalizeRequired] at normal
  split at normal
  · cases normal
  · split at normal
    · cases normal
    · cases normal
      omega

theorem length_of_normalizeScannerVersion {limits : Limits} {version : Option String}
    {text : String} (normal : normalizeScannerVersion limits version = .ok (some text)) :
    text.length ≤ limits.scannerVersionLength := by
  rw [normalizeScannerVersion] at normal
  split at normal
  · cases normal
  · split at normal
    · cases normal
    · cases normal
      omega

theorem length_fingerprint (workspaceId : String) (scanner : Request.Scanner)
    (snapshot : Snapshot) : (fingerprint workspaceId scanner snapshot).length = 8 := by
  rw [fingerprint, Digest.ofPayload, Digest.ofBytes, Digest.hexText, String.length_ofList,
    Json.Reader.length_hexDigits]

structure Fits (submission : Submission) : Prop where
  key : submission.key.length ≤ 128
  workspaceId : submission.workspaceId.length ≤ 128
  scannerName : submission.scanner.name.length ≤ 128
  scannerVersion : ∀ version, submission.scanner.version = some version → version.length ≤ 64
  payloadHash : submission.payloadHash.length ≤ 16
  loopless : submission.snapshot.Loopless

theorem fits_of_prepare {request : Request} {submission : Submission}
    (prepared : prepare .standard request = .ok submission) : submission.Fits := by
  have parts := prepared_of_prepare prepared
  have key : (submission.key.length : Int) ≤ 128 := length_of_normalizeRequired parts.key
  have workspaceId : (submission.workspaceId.length : Int) ≤ 128 :=
    length_of_normalizeRequired parts.workspaceId
  have scannerName : (submission.scanner.name.length : Int) ≤ 128 :=
    length_of_normalizeRequired parts.scannerName
  constructor
  · omega
  · omega
  · omega
  · intro version same
    have normal := parts.scannerVersion
    rw [same] at normal
    have limited : (version.length : Int) ≤ 64 := length_of_normalizeScannerVersion normal
    omega
  · rw [parts.payloadHash, length_fingerprint]
    omega
  · exact loopless_of_prepare prepared

end Submission

namespace Failure

theorem length_normalizeMessage (message : String) : (normalizeMessage message).length ≤ 512 := by
  rw [normalizeMessage]
  split
  · decide
  · exact Text.length_abbreviate_le (by decide) _

theorem length_code (error : StoreError) : (ofError error).code.length ≤ 64 := by
  rw [ofError, record]
  cases error.code? with
  | none =>
      dsimp only [Option.map_none, Option.getD_none]
      decide
  | some code =>
      dsimp only [Option.map_some, Option.getD_some]
      exact (isCode_normalizeCode code).within

theorem length_message (error : StoreError) : (ofError error).message.length ≤ 512 := by
  rw [ofError, record]
  dsimp only
  exact length_normalizeMessage error.message

end Failure

/-! ## Rows -/

theorem Acquisition.row_fits {submission : Submission} (fits : submission.Fits) (id : RowId)
    {attempts : Nat} (positive : 1 ≤ attempts) (now : Instant) :
    (row id attempts now submission).Fits where
  key := fits.key
  payloadHash := fits.payloadHash
  workspaceId := fits.workspaceId
  scannerName := fits.scannerName
  scannerVersion := fits.scannerVersion
  attempts := positive
  errorCode := nofun
  errorMessage := nofun

theorem Commit.row_fits {run : Run} (fits : run.Fits) (now : Instant) (linkage : Linkage) :
    (row now linkage run).Fits :=
  { fits with errorCode := nofun, errorMessage := nofun }

theorem Failure.row_fits {run : Run} (fits : run.Fits) (now : Instant) (error : StoreError) :
    ((ofError error).row now run).Fits :=
  { fits with
    errorCode := by
      intro code same
      rw [← Option.some.inj same]
      exact length_code error
    errorMessage := by
      intro message same
      rw [← Option.some.inj same]
      exact length_message error }

theorem Commit.version_fits {workspaceId payloadHash : String} {number : Nat} {snapshot : Snapshot}
    (workspaceRoom : workspaceId.length ≤ 128) (payloadRoom : payloadHash.length ≤ 16)
    (positive : 1 ≤ number) (loopless : snapshot.Loopless) (id run : RowId) :
    (version id run workspaceId payloadHash number snapshot).Fits :=
  ⟨workspaceRoom, positive, payloadRoom, loopless⟩

theorem Store.Fits.commitRun {store : Store} (fits : store.Fits) {run : Run}
    (found : store.run? run.id = some run) {number : Nat} (positive : 1 ≤ number)
    {snapshot : Snapshot} (loopless : snapshot.Loopless) (now : Instant) :
    (store.commitRun now run number snapshot).Fits := by
  have member := (mem_of_run? found).1
  have runFits := fits.runs run member
  have versionFits := Commit.version_fits runFits.workspaceId runFits.payloadHash positive loopless
    (.issued store.issued) run.id
  exact ((fits.addVersion versionFits member rfl).putHead runFits.workspaceId).putRun found
    (Commit.row_fits runFits now _)

/-! ## Insertions and changes -/

def Store.versionFor (store : Store) (submission : Submission) (run : Run)
    (number : Nat) : Version :=
  Commit.version (.issued store.issued) run.id submission.workspaceId submission.payloadHash number
    submission.snapshot

namespace Transaction

/-- What the operation is to write keeps the constraints. If nothing goes wrong, it fails with the
error exactly if something is taken, and otherwise writes it. -/
structure Inserts {α : Type} (body : Transaction α) (store : Store) (taken : Prop)
    (error : StoreError) (value : α) (changed : Store) : Prop where
  lawful : changed.Lawful
  refused : body.outcome store .none = (.error error, .none) ↔ taken
  done : ¬taken → Gives body store value changed

/-- What the operation is to write in the place of a run keeps the constraints, and if nothing goes
wrong, it writes it. -/
structure Changes (body : Transaction (Option Run)) (store : Store) (run : Run) : Prop where
  lawful : (store.putRun run).Lawful
  done : Gives body store (some run) (store.putRun run)

theorem Inserts.of_cases {α : Type} {body : Transaction α} {store changed : Store} {taken : Prop}
    {error : StoreError} {value : α} (lawful : changed.Lawful)
    (refused : taken → body.outcome store .none = (.error error, .none))
    (done : ¬taken → Gives body store value changed) :
    Inserts body store taken error value changed where
  lawful := lawful
  refused := by
    constructor
    · intro failed
      by_contra free
      have given := done free
      rw [Gives, failed] at given
      cases given
    · exact refused
  done := done

variable {store : Store} {submission : Submission}

theorem insertRun_inserts (fits : store.Fits) (brought : submission.Fits) (now : Instant) :
    Inserts (insertRun (Acquisition.first now submission)) store
      (store.HasKey submission.key) (.keyTaken (some submission.key))
      (Acquisition.row (.issued store.issued) 1 now submission)
      (store.addRun (Acquisition.row (.issued store.issued) 1 now submission)) := by
  have row := Acquisition.toRun_first (.issued store.issued) now submission
  apply Inserts.of_cases
  · exact (fits.addRun (Acquisition.row_fits brought _ (Nat.le_refl 1) now)).lawful
  · intro taken
    have there := Store.runWithKey?_ne_none.mpr taken
    rcases Option.ne_none_iff_exists'.mp there with ⟨run, found⟩
    exact outcome_insertRun_taken 0 row found
  · intro free
    apply insertRun_gives row
    by_contra found
    exact free (Store.runWithKey?_ne_none.mp found)

theorem patchRun_changes (fits : store.Fits) {change : RunDraft → RunDraft} {run changed : Run}
    (found : store.run? run.id = some run)
    (row : (change (RunDraft.ofRun run)).toRun run.id = .ok changed) (id : changed.id = run.id)
    (key : changed.key = run.key) (changedFits : changed.Fits) :
    Changes (patchRun run.id change) store changed where
  lawful := (fits.putRun (id ▸ found) changedFits).lawful
  done := patchRun_gives found row key

/-- Set the latest version of a workspace whose head was looked up at some moment. If there was
none, a head is inserted. -/
def upsertHeadSeeing (seen : Option Head) (workspaceId : String) (number : Int) :
    Transaction Head := do
  begin
  strikeHead
  let store ← getThe Store
  if seen.isNone && (store.head? workspaceId).isSome then
    throw (.versionTaken (some workspaceId) (some number))
  else
    set (store.putHead ⟨workspaceId, number⟩)
    pure ⟨workspaceId, number⟩

/-- With the head there is now, this is the operation of the commit. -/
theorem outcome_upsertHeadSeeing (store : Store) (workspaceId : String) (number : Int)
    (faults : Faults) :
    (upsertHeadSeeing (store.head? workspaceId) workspaceId number).outcome store faults =
      (upsertHead (some workspaceId) (some number)).outcome store faults := by
  have never : ¬((store.head? workspaceId).isNone && (store.head? workspaceId).isSome) = true := by
    cases store.head? workspaceId with
    | none => exact Bool.false_ne_true
    | some head => exact Bool.false_ne_true
  have passed : ∀ left,
      (if (store.head? workspaceId).isNone && (store.head? workspaceId).isSome then
        throw (.versionTaken (some workspaceId) (some number))
      else do
        set (store.putHead ⟨workspaceId, number⟩)
        pure ⟨workspaceId, number⟩ : Transaction Head).outcome store left =
        (.ok (⟨workspaceId, number⟩, store.putHead ⟨workspaceId, number⟩), left) := by
    intro left
    rw [if_neg never]
    rfl
  rw [upsertHeadSeeing, upsertHead, outcome_bind, outcome_bind, outcome_begin]
  rcases faults with ⟨staleReads, lostVersions, version, head, upcoming⟩
  rcases upcoming with _ | ⟨_ | error, rest⟩
  · cases head with
    | none => exact passed _
    | some error => rfl
  · cases head with
    | none => exact passed _
    | some error => rfl
  · rfl

theorem strikeHead_gives : Gives strikeHead store () store := rfl

theorem upsertHead_inserts (fits : store.Fits) {workspaceId : String}
    (room : workspaceId.length ≤ 128) (seen : Option Head) (number : Int) :
    Inserts (upsertHeadSeeing seen workspaceId number) store
      (seen = none ∧ store.HasHead workspaceId)
      (.versionTaken (some workspaceId) (some number)) ⟨workspaceId, number⟩
      (store.putHead ⟨workspaceId, number⟩) := by
  apply Inserts.of_cases (fits.putHead room).lawful
  · intro taken
    have clash : (seen.isNone && (store.head? workspaceId).isSome) = true := by
      rw [taken.1, Store.isSome_head?.mpr taken.2]
      rfl
    rw [upsertHeadSeeing, begin_gives.outcome_eq, strikeHead_gives.outcome_eq,
      get_gives.outcome_eq, if_pos clash]
    rfl
  · intro free
    have passes : ¬(seen.isNone && (store.head? workspaceId).isSome) = true := by
      rw [Bool.and_eq_true, Option.isNone_iff_eq_none, Store.isSome_head?]
      exact free
    rw [Gives, upsertHeadSeeing, begin_gives.outcome_eq, strikeHead_gives.outcome_eq,
      get_gives.outcome_eq, if_neg passes]
    rfl

theorem insertVersion_inserts (fits : store.Fits) (brought : submission.Fits) {run : Run}
    (member : run ∈ store.runs) {number : Nat} (positive : 1 ≤ number) :
    Inserts (insertVersion (Commit.versionDraft run.id submission.workspaceId
        submission.payloadHash number submission.snapshot) submission.snapshot) store
      (store.HasVersion submission.workspaceId number)
      (.versionTaken (some submission.workspaceId) (some number))
      (store.versionFor submission run number)
      (store.addVersion (store.versionFor submission run number)) := by
  have row : (Commit.versionDraft run.id submission.workspaceId submission.payloadHash number
      submission.snapshot).toVersion (.issued store.issued) submission.snapshot =
        .ok (store.versionFor submission run number) :=
    Commit.toVersion_versionDraft positive brought.loopless
  have versionFits : (store.versionFor submission run number).Fits :=
    Commit.version_fits brought.workspaceId brought.payloadHash positive brought.loopless _ _
  apply Inserts.of_cases (fits.addVersion versionFits member rfl).lawful
  · intro taken
    refine outcome_insertVersion_taken fun made isRow => ?_
    rw [row] at isRow
    cases isRow
    exact Store.version?_ne_none.mpr taken
  · intro free
    apply insertVersion_gives row
    by_contra found
    exact free (Store.version?_ne_none.mp found)

end Transaction

open Transaction

/-- What a commit of the run writes, one operation after another. The head may have been looked up
at any moment; the commit itself goes by the one there is. -/
structure Commit.Writes (store : Store) (submission : Submission) (now : Instant) (run : Run)
    (number : Nat) : Prop where
  numbers : store.Clashes (store.versionFor submission run number) ↔
    store.HasVersion submission.workspaceId number
  heads : Table.heads.Clashes store.headRows (Head.row ⟨submission.workspaceId, number⟩) ↔
    store.HasHead submission.workspaceId
  version : Inserts
    (insertVersion (versionDraft run.id submission.workspaceId submission.payloadHash number
      submission.snapshot) submission.snapshot) store
    (store.HasVersion submission.workspaceId number)
    (.versionTaken (some submission.workspaceId) (some number))
    (store.versionFor submission run number)
    (store.addVersion (store.versionFor submission run number))
  head : ∀ seen, Inserts (upsertHeadSeeing seen submission.workspaceId number)
    (store.addVersion (store.versionFor submission run number))
    (seen = none ∧ store.HasHead submission.workspaceId)
    (.versionTaken (some submission.workspaceId) (some number))
    ⟨submission.workspaceId, number⟩
    ((store.addVersion (store.versionFor submission run number)).putHead
      ⟨submission.workspaceId, number⟩)
  headNow : ∀ faults,
    (upsertHeadSeeing ((store.addVersion (store.versionFor submission run number)).head?
      submission.workspaceId) submission.workspaceId number).outcome
        (store.addVersion (store.versionFor submission run number)) faults =
      (upsertHead (some submission.workspaceId) (some number)).outcome
        (store.addVersion (store.versionFor submission run number)) faults
  run : Changes
    (patchRun run.id (succeed now ⟨(store.versionFor submission run number).id, number⟩))
    ((store.addVersion (store.versionFor submission run number)).putHead
      ⟨submission.workspaceId, number⟩)
    (row now ⟨(store.versionFor submission run number).id, number⟩ run)

theorem Commit.writes {store : Store} {submission : Submission} (fits : store.Fits)
    (brought : submission.Fits) (now : Instant) {run : Run} (stored : store.run? run.id = some run)
    {number : Nat} (positive : 1 ≤ number) : Writes store submission now run number := by
  have member := (Store.mem_of_run? stored).1
  have withVersion : (store.addVersion (store.versionFor submission run number)).Fits :=
    fits.addVersion (version_fits brought.workspaceId brought.payloadHash positive
      brought.loopless _ _) member rfl
  constructor
  · exact Store.clashes_version
  · exact Store.clashes_head
  · exact insertVersion_inserts fits brought member positive
  · intro seen
    exact upsertHead_inserts withVersion brought.workspaceId seen number
  · exact outcome_upsertHeadSeeing _ _ _
  · have runFits := fits.runs run member
    apply patchRun_changes (withVersion.putHead brought.workspaceId) stored
    · exact toRun_succeed now _ runFits.attempts
    · rfl
    · rfl
    · exact row_fits runFits now _

/-! ## Lost races -/

def Faults.FeignKey (faults : Faults) : Prop := ∃ key, faults.Raises (.keyTaken key)

def Faults.FeignVersion (faults : Faults) : Prop :=
  faults.lostVersions ≠ 0 ∨ ∃ workspaceId version, faults.Raises (.versionTaken workspaceId version)

namespace Transaction

variable {α β : Type} {store : Store} {refusal : StoreError → Prop}

def Spares (body : Transaction α) : Prop :=
  ∀ store faults, (body.outcome store faults).2.lostVersions = faults.lostVersions

theorem Spares.bind {body : Transaction α} {next : α → Transaction β} (first : Spares body)
    (rest : ∀ value, Spares (next value)) : Spares (body >>= next) := by
  intro store faults
  have spared := first store faults
  rw [outcome_bind]
  rcases result : body.outcome store faults with ⟨error | ⟨value, changed⟩, left⟩
  · rw [result] at spared
    exact spared
  · rw [result] at spared
    exact (rest value changed left).trans spared

theorem begin_spares : Spares begin := by
  intro store faults
  rw [outcome_begin]
  rcases faults with ⟨staleReads, lostVersions, version, head, upcoming⟩
  rcases upcoming with _ | ⟨_ | error, rest⟩ <;> rfl

/-- The transaction keeps to the contract under all faults that let no version be lost. -/
def EnsuresSpared (body : Transaction α) (store : Store) (post : α → Store → Prop)
    (refusal : StoreError → Prop) : Prop :=
  ∀ faults, faults.lostVersions = 0 → Agreed post refusal faults (body.outcome store faults)

theorem Ensures.spared {body : Transaction α} {post : α → Store → Prop}
    (ensures : Ensures body store post refusal) : EnsuresSpared body store post refusal :=
  fun faults _ => ensures faults

theorem Agreed.bind {body : Transaction α} {next : α → Transaction β} {faults : Faults}
    {middle : α → Store → Prop} {post : β → Store → Prop}
    (first : Agreed middle refusal faults (body.outcome store faults))
    (rest : ∀ value changed left, body.outcome store faults = (.ok (value, changed), left) →
      middle value changed → Agreed post refusal left ((next value).outcome changed left)) :
    Agreed post refusal faults ((body >>= next).outcome store faults) := by
  rw [outcome_bind]
  rcases result : body.outcome store faults with ⟨error | ⟨value, changed⟩, left⟩
  · rw [result] at first
    exact first
  · rw [result] at first
    exact (rest value changed left result first.1).of_within first.2

theorem Ensures.bind_spared {body : Transaction α} {next : α → Transaction β}
    {middle : α → Store → Prop} {post : β → Store → Prop}
    (first : Ensures body store middle refusal) (spares : Spares body)
    (rest : ∀ value changed, middle value changed →
      EnsuresSpared (next value) changed post refusal) :
    EnsuresSpared (body >>= next) store post refusal := by
  intro faults spared
  apply Agreed.bind (first faults)
  intro value changed left result holds
  have kept := spares store faults
  rw [result] at kept
  exact rest value changed holds left (kept.trans spared)

theorem EnsuresSpared.bind_ensures {body : Transaction α} {next : α → Transaction β}
    {middle : α → Store → Prop} {post : β → Store → Prop}
    (first : EnsuresSpared body store middle refusal)
    (rest : ∀ value changed, middle value changed → Ensures (next value) changed post refusal) :
    EnsuresSpared (body >>= next) store post refusal := by
  intro faults spared
  apply Agreed.bind (first faults spared)
  intro value changed left result holds
  exact rest value changed holds left

theorem EnsuresSpared.execute_error {body : Transaction α} {post : α → Store → Prop}
    (first : EnsuresSpared body store post refusal) {faults : Faults}
    (spared : faults.lostVersions = 0) {error : StoreError}
    (failed : (body.execute store faults).1 = .error error) :
    faults.Raises error ∨ refusal error := by
  have committed : EnsuresSpared (do let value ← body; begin; return value) store
      (fun _ _ => True) refusal :=
    first.bind_ensures fun _ _ _ => begin_ensures.bind fun _ _ _ => .pure trivial
  have agreed := committed faults spared
  rw [execute_eq] at failed
  rcases result : outcome (do let value ← body; begin; return value) store faults with
    ⟨other | ⟨value, changed⟩, left⟩
  · rw [result] at agreed failed
    cases failed
    exact agreed.1
  · rw [result] at failed
    cases failed

theorem strikeVersion_spared (workspaceId : Option String) (number : Option Int) :
    EnsuresSpared (strikeVersion workspaceId number) store (fun _ changed => changed = store)
      refusal := by
  intro faults spared
  rcases faults with ⟨staleReads, lostVersions, version, head, upcoming⟩
  cases spared
  cases version with
  | none => exact ⟨rfl, .refl _⟩
  | some error =>
      constructor
      · exact .inl (.inr (.inl rfl))
      · intro error raised
        rcases raised with raised | raised | raised
        · exact .inl raised
        · cases raised
        · exact .inr (.inr raised)

theorem insertVersion_spared {draft : VersionDraft} {snapshot : Snapshot} {version : Version}
    (row : draft.toVersion (.issued store.issued) snapshot = .ok version)
    (taken : ∀ other, store.version? version.workspaceId version.number = some other →
      refusal (.versionTaken draft.workspaceId draft.number)) :
    EnsuresSpared (insertVersion draft snapshot) store
      (fun made changed => made = version ∧ changed = store.addVersion version) refusal := by
  apply begin_ensures.bind_spared begin_spares
  rintro _ _ rfl
  apply (strikeVersion_spared draft.workspaceId draft.number).bind_ensures
  rintro _ changed rfl
  apply Ensures.bind_get
  rw [row]
  apply Ensures.ite
  · intro found
    rcases Option.isSome_iff_exists.mp found with ⟨other, found⟩
    exact .throw (taken other found)
  · intro free
    exact .bind_set (.pure ⟨rfl, rfl⟩)

end Transaction

/-- If the error tells of a lost version, something is taken. -/
def StoreError.Justified (taken : Prop) (error : StoreError) : Prop :=
  ∀ workspaceId number, error = .versionTaken workspaceId number → taken

theorem StoreError.justified_ingestion {taken : Prop} (error : IngestionError) :
    (ingestion error).Justified taken := by
  intro workspaceId number same
  cases same

namespace Commit

variable {store : Store} {submission : Submission} {taken : Prop}

theorem standing_justified (id : RowId) (workspaceId payloadHash : String) :
    Ensures (standing id workspaceId payloadHash) store
      (fun standing changed => changed = store ∧ ∀ run, standing = .ready run →
        store.run? run.id = some run ∧ run.workspaceId = workspaceId ∧
          run.payloadHash = payloadHash)
      (StoreError.Justified taken) := by
  apply (findRun_ensures id).bind_found
  cases found : store.run? id with
  | none => exact .throw (StoreError.justified_ingestion _)
  | some run =>
      apply Ensures.ite
      · exact fun _ => .throw (StoreError.justified_ingestion _)
      · intro workspace
        apply Ensures.ite
        · exact fun _ => .throw (StoreError.justified_ingestion _)
        · intro payload
          have stored : store.run? run.id = some run := (Store.mem_of_run? found).2 ▸ found
          cases run.status with
          | processing =>
              apply Ensures.pure
              constructor
              · rfl
              · intro ready same
                cases same
                exact ⟨stored, Decidable.not_not.mp workspace, Decidable.not_not.mp payload⟩
          | succeeded =>
              apply (Run.linkage_ensures fun _ => StoreError.justified_ingestion _).bind
              rintro linkage left ⟨-, rfl⟩
              apply Ensures.pure
              constructor
              · rfl
              · intro ready same
                cases same
          | failed =>
              dsimp only
              apply Ensures.throw
              exact StoreError.justified_ingestion _

theorem standing_spares (id : RowId) (workspaceId payloadHash : String) :
    Spares (standing id workspaceId payloadHash) := by
  have found : Spares (findRun id) := begin_spares.bind fun _ _ _ => rfl
  apply found.bind
  intro found?
  cases found? with
  | none => exact fun _ _ => rfl
  | some run =>
      dsimp only
      split
      · exact fun _ _ => rfl
      · split
        · exact fun _ _ => rfl
        · cases run.status with
          | processing | failed => exact fun _ _ => rfl
          | succeeded =>
              dsimp only
              rw [Run.linkage]
              cases run.linkage? with
              | none | some => exact fun _ _ => rfl

theorem seeing_spared (sound : store.Sound) (loopless : submission.snapshot.Loopless)
    {seen : Option Head} {number : Nat} (next : nextNumber seen = number) (positive : 1 ≤ number)
    (now : Instant) (id : RowId) :
    EnsuresSpared (seeing seen now id submission.workspaceId submission.payloadHash
        submission.snapshot) store (fun _ _ => True)
      (StoreError.Justified (store.HasVersion submission.workspaceId number)) := by
  apply (standing_justified id _ _).bind_spared (standing_spares id _ _)
  rintro standing current ⟨rfl, ready⟩
  cases standing with
  | done commit => exact (Ensures.pure trivial).spared
  | ready run =>
      have found := (ready run rfl).1
      have attempts := sound.attempts run (Store.mem_of_run? found).1
      -- The row passes all checks, so only its number can stand in its way.
      let made := version (.issued current.issued) run.id submission.workspaceId
        submission.payloadHash number submission.snapshot
      have stored : ((current.addVersion made).putHead ⟨submission.workspaceId, number⟩).run?
          run.id = some run := found
      apply begin_ensures.bind_spared begin_spares
      rintro _ _ rfl
      dsimp only [after]
      rw [next]
      apply (insertVersion_spared (toVersion_versionDraft positive loopless) ?_).bind_ensures
      · rintro version _ ⟨rfl, rfl⟩
        apply (upsertHead_ensures submission.workspaceId number).bind_discard
        apply (patchRun_ensures stored (toRun_succeed now _ attempts) rfl).bind_discard
        exact .pure trivial
      · intro other there _ _ _
        apply Store.version?_ne_none.mp
        exact Option.ne_none_iff_exists'.mpr ⟨other, there⟩

/-- A version is lost only if the faults say so or there is another one under its number. -/
theorem execute_seeing_lost (sound : store.Sound) (loopless : submission.snapshot.Loopless)
    {seen : Option Head} {number : Nat} (next : nextNumber seen = number) (positive : 1 ≤ number)
    {now : Instant} {id : RowId} {faults : Faults} {workspaceId : Option String}
    {version : Option Int}
    (lost : ((seeing seen now id submission.workspaceId submission.payloadHash
      submission.snapshot).execute store faults).1 = .error (.versionTaken workspaceId version)) :
    faults.FeignVersion ∨ store.HasVersion submission.workspaceId number := by
  by_cases spared : faults.lostVersions = 0
  · rcases (seeing_spared sound loopless next positive now id).execute_error spared lost with
      raised | justified
    · exact .inl (.inr ⟨workspaceId, version, raised⟩)
    · exact .inr (justified _ _ rfl)
  · exact .inl (.inl spared)

end Commit

theorem Acquisition.execute_make_lost {store : Store} (sound : store.Sound)
    {submission : Submission} {now : Instant} {faults : Faults} {key : Option String}
    (lost : ((make now submission).execute store faults).1 = .error (.keyTaken key)) :
    faults.FeignKey ∨ store.HasKey submission.key := by
  rcases (make_ensures sound now submission).execute faults with
    ⟨error, left, equal, reason⟩ | ⟨acquisition, changed, left, equal, outcome⟩
  · rw [equal] at lost
    cases lost
    rcases reason with raised | refusal
    · exact .inl ⟨key, raised⟩
    · cases refusal with
      | keyTaken run found => exact .inr ⟨run, Store.mem_of_runWithKey? found⟩
  · rw [equal] at lost
    cases lost

end WorkspaceGraph
