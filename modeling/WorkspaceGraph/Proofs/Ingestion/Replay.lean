import WorkspaceGraph.Proofs.Ingestion.Actions
/-!
Submissions under the key of a run that succeeded. If nothing goes wrong, they get the answer that
was given before or are refused, and they change nothing; it makes no difference if the run is
missed at first.
-/

namespace WorkspaceGraph

namespace Transaction

variable {store : Store}

theorem outcome_findRunWithKey (store : Store) (key : String) :
    (findRunWithKey key).outcome store (.missing 0) =
      (.ok (store.runWithKey? key, store), .missing 0) := rfl

theorem outcome_findRunWithKey_missing (store : Store) (key : String) (misses : Nat) :
    (findRunWithKey key).outcome store (.missing (misses + 1)) =
      (.ok (none, store), .missing misses) := rfl

theorem outcome_insertRun_taken {draft : RunDraft} {run other : Run} (misses : Nat)
    (row : draft.withDefaults.toRun (.issued store.issued) = .ok run)
    (taken : store.runWithKey? run.key = some other) :
    (insertRun draft).outcome store (.missing misses) =
      (.error (.keyTaken draft.key), .missing misses) := by
  rw [insertRun, outcome_bind, outcome_begin]
  simp only [Faults.missing, Faults.none, outcome_bind, outcome_get, row, taken]
  rfl

end Transaction

structure Run.Attests (run : Run) (submission : Submission) (receipt : Receipt) : Prop where
  key : run.key = submission.key
  payloadHash : run.payloadHash = submission.payloadHash
  id : run.id = receipt.run
  succeeded : run.status = .succeeded
  linkage : run.linkage? = receipt.linkage
  attempts : run.attempts = receipt.attempts

/-- What is answered to a later submission under the key of an earlier one: the same again, if it
has the same payload, and nothing otherwise. -/
def Receipt.replay (receipt : Receipt) (earlier later : Submission) : Except StoreError Receipt :=
  if later.payloadHash = earlier.payloadHash then .ok { receipt with deduplicated := true }
  else .error (.ingestion .keyReused)

theorem Receipt.linkage_of_succeeded {receipt : Receipt} (succeeded : receipt.status = .succeeded) :
    ∃ linkage, receipt.linkage = some linkage := by
  rw [status] at succeeded
  cases names : receipt.linkage with
  | none =>
      rw [names] at succeeded
      cases succeeded
  | some linkage => exact ⟨linkage, rfl⟩

section Replay

variable {store : Store} {run : Run} {earlier later : Submission} {receipt : Receipt}
  {linkage : Linkage}

namespace Acquisition

def replay (receipt : Receipt) (linkage : Linkage) (earlier later : Submission) :
    Except StoreError Acquisition :=
  if later.payloadHash = earlier.payloadHash then
    .ok (deduplicated receipt.run linkage receipt.attempts)
  else .error (.ingestion .keyReused)

theorem execute_replay (now : Instant) (found : store.runWithKey? later.key = some run)
    (attests : run.Attests earlier receipt) (names : receipt.linkage = some linkage) :
    (make now later).execute store (.missing 0) =
      (replay receipt linkage earlier later, store, .missing 0) := by
  rw [Transaction.execute_eq, Transaction.outcome_bind, make, Transaction.outcome_bind,
    Transaction.outcome_findRunWithKey]
  simp only [found, Decision.make, replay, attests.payloadHash]
  by_cases same : earlier.payloadHash = later.payloadHash
  · simp only [same, if_true, attests.succeeded, Decision.ofStatus, Transaction.outcome_bind,
      Run.linkage, attests.linkage, names, attests.id, attests.attempts]
    rfl
  · simp only [same, Ne.symm same, if_false]
    rfl

theorem execute_missing (now : Instant) (misses : Nat)
    (found : store.runWithKey? later.key = some run) :
    (make now later).execute store (.missing (misses + 1)) =
      (.error (.keyTaken (some later.key)), store, .missing misses) := by
  rw [Transaction.execute_eq, Transaction.outcome_bind, make, Transaction.outcome_bind,
    Transaction.outcome_findRunWithKey_missing]
  simp only [Decision.make, Transaction.outcome_bind,
    Transaction.outcome_insertRun_taken misses (toRun_first _ now later) found]
  rfl

end Acquisition

namespace Service

theorem outcome_acquire (now : Instant) {misses : Nat} (few : misses ≤ 1) (log : List Log.Entry)
    (found : store.runWithKey? later.key = some run) (attests : run.Attests earlier receipt)
    (names : receipt.linkage = some linkage) :
    ∃ faults noted, (acquire now later).outcome ⟨store, .missing misses, log⟩ =
      (Acquisition.replay receipt linkage earlier later, ⟨store, faults, noted⟩) := by
  have seen := Acquisition.execute_replay now found attests names
  rw [acquire, outcome_tryCatch, outcome_transact]
  cases misses with
  | zero =>
      by_cases same : later.payloadHash = earlier.payloadHash
      · simp only [seen, Acquisition.replay, same, if_true]
        exact ⟨_, _, rfl⟩
      · simp only [seen, Acquisition.replay, same, if_false]
        exact ⟨_, _, rfl⟩
  | succ misses =>
      have none : misses = 0 := by omega
      subst none
      simp only [Acquisition.execute_missing now 0 found, outcome_bind, outcome_note,
        outcome_transact, seen]
      exact ⟨_, _, rfl⟩

theorem outcome_ingestSubmission (limits : Limits) (now : Instant) {misses : Nat}
    (few : misses ≤ 1) (log : List Log.Entry) (found : store.runWithKey? later.key = some run)
    (attests : run.Attests earlier receipt) (names : receipt.linkage = some linkage) :
    ∃ faults noted, (ingestSubmission limits now later).outcome ⟨store, .missing misses, log⟩ =
      (receipt.replay earlier later, ⟨store, faults, noted⟩) := by
  rcases outcome_acquire now few log found attests names with ⟨faults, noted, acquired⟩
  rw [ingestSubmission, outcome_bind, acquired, Acquisition.replay, Receipt.replay]
  by_cases same : later.payloadHash = earlier.payloadHash
  · simp only [same, if_true, outcome_bind, outcome_note, outcome_pure, ← names]
    exact ⟨_, _, rfl⟩
  · simp only [same, if_false]
    exact ⟨_, _, rfl⟩

theorem outcome_ingest {limits : Limits} {request : Request}
    (prepared : Submission.prepare limits request = .ok later) (now : Instant) {misses : Nat}
    (few : misses ≤ 1) (log : List Log.Entry) (found : store.runWithKey? later.key = some run)
    (attests : run.Attests earlier receipt) (names : receipt.linkage = some linkage) :
    ∃ faults noted, (ingest limits now request).outcome ⟨store, .missing misses, log⟩ =
      (receipt.replay earlier later, ⟨store, faults, noted⟩) := by
  rw [ingest, outcome_bind, prepare, prepared]
  exact outcome_ingestSubmission limits now few log found attests names

end Service

end Replay

end WorkspaceGraph
