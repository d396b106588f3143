import WorkspaceGraph.Proofs.Store.Contract
import WorkspaceGraph.Proofs.Store.Tables
/-!
What the operations of a transaction keep to.
-/

namespace WorkspaceGraph.Transaction

variable {store : Store} {refusal : StoreError → Prop}

/-! ## Lookups -/

theorem begin_ensures : Ensures begin store (fun _ changed => changed = store) refusal := by
  intro faults
  rw [outcome_begin]
  rcases faults with ⟨staleReads, lostVersions, version, head, upcoming⟩
  rcases upcoming with _ | ⟨_ | error, rest⟩
  · exact ⟨rfl, .refl _⟩
  · refine ⟨rfl, fun error raised => raised.imp_left ?_⟩
    exact List.mem_cons_of_mem _
  · refine ⟨.inl (.inl (List.mem_cons_self ..)), fun error raised => raised.imp_left ?_⟩
    exact List.mem_cons_of_mem _

theorem missesKey_ensures :
    Ensures missesKey store (fun _ changed => changed = store) refusal := by
  intro faults
  rw [outcome_missesKey]
  split
  · exact ⟨rfl, .refl faults⟩
  · exact ⟨rfl, fun _ raised => raised⟩

theorem lookup_ensures {α : Type} (find : Store → α) :
    Ensures (do begin; return find (← getThe Store)) store
      (fun found changed => found = find store ∧ changed = store) refusal :=
  begin_ensures.bind_kept fun _ => .bind_get (.pure ⟨rfl, rfl⟩)

theorem findRun_ensures (id : RowId) :
    Ensures (findRun id) store
      (fun found changed => found = store.run? id ∧ changed = store) refusal :=
  lookup_ensures fun store => store.run? id

theorem findLatestSucceeded_ensures (workspaceId : String) :
    Ensures (findLatestSucceeded workspaceId) store
      (fun found changed => found = store.latestSucceeded? workspaceId ∧ changed = store)
      refusal :=
  lookup_ensures fun store => store.latestSucceeded? workspaceId

theorem findRunWithKey_ensures (key : String) :
    Ensures (findRunWithKey key) store
      (fun found changed =>
        (found = none ∨ found = store.runWithKey? key) ∧ changed = store) refusal := by
  refine begin_ensures.bind_kept fun _ => missesKey_ensures.bind_kept fun misses => ?_
  refine .ite (fun _ => .pure ⟨.inl rfl, rfl⟩) fun _ => ?_
  exact .bind_get (.pure ⟨.inr rfl, rfl⟩)

/-! ## Runs -/

theorem insertRun_ensures {draft : RunDraft} {run : Run}
    (row : draft.withDefaults.toRun (.issued store.issued) = .ok run)
    (taken : ∀ other, store.runWithKey? run.key = some other → refusal (.keyTaken draft.key)) :
    Ensures (insertRun draft) store
      (fun made changed =>
        made = run ∧ store.runWithKey? run.key = none ∧ changed = store.addRun run) refusal := by
  refine begin_ensures.bind_kept fun _ => .bind_get ?_
  rw [row]
  refine .ite (fun found => ?_) fun free => ?_
  · rcases Option.isSome_iff_exists.mp found with ⟨other, found⟩
    exact .throw (taken other found)
  exact .bind_set (.pure ⟨rfl, by simpa using free, rfl⟩)

theorem patchRun_ensures {id : RowId} {change : RunDraft → RunDraft} {run changed : Run}
    (found : store.run? id = some run)
    (row : (change (RunDraft.ofRun run)).toRun id = .ok changed) (key : changed.key = run.key) :
    Ensures (patchRun id change) store (fun _ left => left = store.putRun changed) refusal := by
  refine begin_ensures.bind_kept fun _ => .bind_get ?_
  simp only [found, row, key, ne_eq, not_true_eq_false, decide_false, Bool.false_and,
    Bool.false_eq_true, if_false]
  exact .bind_set (.pure rfl)

/-! ## Versions and heads -/

theorem strikeVersion_ensures {workspaceId : Option String} {number : Option Int}
    (taken : refusal (.versionTaken workspaceId number)) :
    Ensures (strikeVersion workspaceId number) store (fun _ changed => changed = store)
      refusal := by
  intro faults
  rcases faults with ⟨staleReads, lostVersions, version, head, upcoming⟩
  rcases lostVersions with _ | lostVersions
  · rcases version with _ | error
    · exact ⟨rfl, .refl _⟩
    · refine ⟨.inl (.inr (.inl rfl)), fun error raised => ?_⟩
      rcases raised with raised | raised | raised
      · exact .inl raised
      · cases raised
      · exact .inr (.inr raised)
  · exact ⟨.inr taken, fun _ raised => raised⟩

theorem strikeHead_ensures :
    Ensures strikeHead store (fun _ changed => changed = store) refusal := by
  intro faults
  rcases faults with ⟨staleReads, lostVersions, version, head, upcoming⟩
  rcases head with _ | error
  · exact ⟨rfl, .refl _⟩
  · refine ⟨.inl (.inr (.inr rfl)), fun error raised => ?_⟩
    rcases raised with raised | raised | raised
    · exact .inl raised
    · exact .inr (.inl raised)
    · cases raised

theorem insertVersion_ensures {draft : VersionDraft} {snapshot : Snapshot}
    (taken : refusal (.versionTaken draft.workspaceId draft.number)) :
    Ensures (insertVersion draft snapshot) store
      (fun version changed =>
        draft.toVersion (.issued store.issued) snapshot = .ok version ∧
          store.version? version.workspaceId version.number = none ∧
          changed = store.addVersion version) refusal := by
  refine begin_ensures.bind_kept fun _ => (strikeVersion_ensures taken).bind_kept fun _ => ?_
  refine .bind_get ?_
  cases row : draft.toVersion (.issued store.issued) snapshot with
  | error violation => exact .throw taken
  | ok version =>
      refine .ite (fun _ => .throw taken) fun free => ?_
      exact .bind_set (.pure ⟨rfl, by simpa using free, rfl⟩)

theorem upsertHead_ensures (workspaceId : String) (number : Int) :
    Ensures (upsertHead (some workspaceId) (some number)) store
      (fun _ changed => changed = store.putHead ⟨workspaceId, number⟩) refusal := by
  refine begin_ensures.bind_kept fun _ => strikeHead_ensures.bind_kept fun _ => ?_
  exact fun faults => ⟨rfl, .refl faults⟩

/-! ## Running -/

theorem Ensures.committed {α : Type} {body : Transaction α} {post : α → Store → Prop}
    (first : Ensures body store post refusal) :
    Ensures (do let value ← body; begin; return value) store post refusal :=
  first.bind fun _ _ holds => begin_ensures.bind fun _ _ same => .pure (same ▸ holds)

/-- What a transaction that keeps to a contract has done when it has been run: on success its
changes are kept, and on failure there are none. -/
theorem Ensures.execute {α : Type} {body : Transaction α} {post : α → Store → Prop}
    (first : Ensures body store post refusal) (faults : Faults) :
    (∃ error left, body.execute store faults = (.error error, store, left) ∧
        (faults.Raises error ∨ refusal error)) ∨
      ∃ value changed left, body.execute store faults = (.ok value, changed, left) ∧
        post value changed := by
  have agreed := first.committed faults
  rw [execute_eq]
  generalize outcome (do let value ← body; begin; return value) store faults = result
    at agreed ⊢
  rcases result with ⟨error | ⟨value, changed⟩, left⟩
  · exact .inl ⟨error, left, rfl, agreed.1⟩
  · exact .inr ⟨value, changed, left, rfl, agreed.1⟩

theorem Ensures.observe {α : Type} {body : Transaction α} {post : α → Store → Prop}
    (first : Ensures body store post refusal) (faults : Faults) :
    (∃ error left, body.observe store faults = (.error error, left) ∧
        (faults.Raises error ∨ refusal error)) ∨
      ∃ value changed left, body.observe store faults = (.ok value, left) ∧
        post value changed := by
  have agreed := first faults
  rw [observe_eq]
  generalize body.outcome store faults = result at agreed ⊢
  rcases result with ⟨error | ⟨value, changed⟩, left⟩
  · exact .inl ⟨error, left, rfl, agreed.1⟩
  · exact .inr ⟨value, changed, left, rfl, agreed.1⟩

/-- Run on the store, the transaction does as agreed, or it leaves the store as it was and returns
an error that the faults raise or that is allowed. -/
def Fulfils {α : Type} (body : Transaction α) (store : Store) (post : α → Store → Prop)
    (refusal : StoreError → Prop) : Prop :=
  ∀ faults, match body.execute store faults with
    | (.ok value, changed, _) => post value changed
    | (.error error, left, _) => left = store ∧ (faults.Raises error ∨ refusal error)

theorem Ensures.fulfils {α : Type} {body : Transaction α} {post : α → Store → Prop}
    (first : Ensures body store post refusal) : Fulfils body store post refusal := by
  intro faults
  rcases first.execute faults with
    ⟨error, left, equal, reason⟩ | ⟨value, changed, left, equal, holds⟩
  · rw [equal]
    exact ⟨rfl, reason⟩
  · rw [equal]
    exact holds

end WorkspaceGraph.Transaction
