import WorkspaceGraph.Store.Transaction
/-!
What a transaction keeps to, whatever goes wrong with it: what holds when it returns, and which
errors are its own. Every other error is one that its faults brought about.
-/

namespace WorkspaceGraph

namespace Faults

def Raises (faults : Faults) (error : StoreError) : Prop :=
  some error ∈ faults.upcoming ∨ faults.version = some error ∨ faults.head = some error

/-- What is left of some faults raises nothing that they would not have raised. -/
def Within (left faults : Faults) : Prop := ∀ error, left.Raises error → faults.Raises error

theorem Within.refl (faults : Faults) : faults.Within faults := fun _ raised => raised

theorem Within.trans {last left faults : Faults} (first : last.Within left)
    (second : left.Within faults) : last.Within faults :=
  fun error raised => second error (first error raised)

def missing (misses : Nat) : Faults := { none with staleReads := misses }

end Faults

namespace Transaction

variable {α β : Type}

/-! ## Outcomes -/

def outcome (body : Transaction α) (store : Store) (faults : Faults) :
    Except StoreError (α × Store) × Faults :=
  ((body.run store).run).run faults

theorem outcome_bind (body : Transaction α) (next : α → Transaction β) (store : Store)
    (faults : Faults) :
    (body >>= next).outcome store faults =
      match body.outcome store faults with
      | (.ok (value, changed), left) => (next value).outcome changed left
      | (.error error, left) => (.error error, left) := by
  simp only [outcome, StateT.run_bind, ExceptT.run_bind]
  change (match ((body.run store).run).run faults with | (result, left) => _) = _
  rcases ((body.run store).run).run faults with ⟨error | ⟨value, changed⟩, left⟩ <;> rfl

theorem outcome_begin (store : Store) (faults : Faults) :
    begin.outcome store faults =
      match faults.upcoming with
      | [] => (.ok ((), store), faults)
      | some error :: rest => (.error error, { faults with upcoming := rest })
      | none :: rest => (.ok ((), store), { faults with upcoming := rest }) := by
  rcases faults with ⟨staleReads, lostVersions, version, head, upcoming⟩
  rcases upcoming with _ | ⟨_ | error, rest⟩ <;> rfl

@[simp] theorem outcome_get (store : Store) (faults : Faults) :
    (getThe Store : Transaction Store).outcome store faults = (.ok (store, store), faults) := rfl

theorem outcome_missesKey (store : Store) (faults : Faults) :
    missesKey.outcome store faults =
      if faults.staleReads = 0 then (.ok (false, store), faults)
      else (.ok (true, store), { faults with staleReads := faults.staleReads - 1 }) := by
  rcases faults with ⟨staleReads, lostVersions, version, head, upcoming⟩
  cases staleReads <;> rfl

/-! ## Contracts -/

/-- Whether an outcome is as agreed: either `post` holds of the value and of the store that is left,
or the error is one that the faults raise or that `refusal` allows. -/
def Agreed (post : α → Store → Prop) (refusal : StoreError → Prop) (faults : Faults) :
    Except StoreError (α × Store) × Faults → Prop
  | (.ok (value, changed), left) => post value changed ∧ left.Within faults
  | (.error error, left) => (faults.Raises error ∨ refusal error) ∧ left.Within faults

theorem Agreed.mono {strong post : α → Store → Prop} {narrow refusal : StoreError → Prop}
    {faults : Faults} (weaker : ∀ value changed, strong value changed → post value changed)
    (wider : ∀ error, narrow error → refusal error) :
    ∀ {result}, Agreed strong narrow faults result → Agreed post refusal faults result
  | (.ok (value, changed), _), agreed => ⟨weaker value changed agreed.1, agreed.2⟩
  | (.error error, _), agreed => ⟨agreed.1.imp_right (wider error), agreed.2⟩

theorem Agreed.of_within {post : α → Store → Prop} {refusal : StoreError → Prop}
    {left faults : Faults} (within : left.Within faults) :
    ∀ {result}, Agreed post refusal left result → Agreed post refusal faults result
  | (.ok _, _), agreed => ⟨agreed.1, agreed.2.trans within⟩
  | (.error error, _), agreed => ⟨agreed.1.imp_left (within error), agreed.2.trans within⟩

/-- Started on the store, the transaction keeps to the contract under all faults. -/
def Ensures (body : Transaction α) (store : Store) (post : α → Store → Prop)
    (refusal : StoreError → Prop) : Prop :=
  ∀ faults, Agreed post refusal faults (body.outcome store faults)

namespace Ensures

variable {store : Store} {post : α → Store → Prop} {refusal : StoreError → Prop}

theorem pure {value : α} (holds : post value store) :
    Ensures (Pure.pure value) store post refusal :=
  fun faults => ⟨holds, .refl faults⟩

theorem throw {error : StoreError} (allowed : refusal error) :
    Ensures (MonadExcept.throw error : Transaction α) store post refusal :=
  fun faults => ⟨.inr allowed, .refl faults⟩

theorem bind {body : Transaction α} {next : α → Transaction β} {middle : α → Store → Prop}
    {post : β → Store → Prop} (first : Ensures body store middle refusal)
    (rest : ∀ value changed, middle value changed → Ensures (next value) changed post refusal) :
    Ensures (body >>= next) store post refusal := by
  intro faults
  have agreed := first faults
  rw [outcome_bind]
  rcases result : body.outcome store faults with ⟨error | ⟨value, changed⟩, left⟩
  · rw [result] at agreed
    exact agreed
  · rw [result] at agreed
    exact (rest value changed agreed.1 left).of_within agreed.2

theorem bind_kept {body : Transaction α} {next : α → Transaction β} {post : β → Store → Prop}
    (first : Ensures body store (fun _ changed => changed = store) refusal)
    (rest : ∀ value, Ensures (next value) store post refusal) :
    Ensures (body >>= next) store post refusal :=
  first.bind fun value _ same => same ▸ rest value

theorem bind_found {body : Transaction α} {next : α → Transaction β} {found : α}
    {post : β → Store → Prop}
    (first : Ensures body store (fun value changed => value = found ∧ changed = store) refusal)
    (rest : Ensures (next found) store post refusal) :
    Ensures (body >>= next) store post refusal :=
  first.bind fun _ _ same => same.1 ▸ same.2 ▸ rest

theorem bind_discard {body : Transaction α} {next : PUnit → Transaction β} {changed : Store}
    {post : β → Store → Prop} (first : Ensures body store (fun _ left => left = changed) refusal)
    (rest : Ensures (next ⟨⟩) changed post refusal) :
    Ensures (discard body >>= next) store post refusal := by
  have same : discard body = body >>= fun _ => Pure.pure PUnit.unit := rfl
  have discarded : Ensures (body >>= fun _ => Pure.pure PUnit.unit) store
      (fun _ left => left = changed) refusal := first.bind fun _ _ kept => .pure kept
  rw [same]
  exact discarded.bind fun _ _ kept => kept ▸ rest

theorem bind_get {next : Store → Transaction α} (rest : Ensures (next store) store post refusal) :
    Ensures (getThe Store >>= next) store post refusal := by
  have first : Ensures (getThe Store) store
      (fun found changed => found = store ∧ changed = store) refusal :=
    fun faults => ⟨⟨rfl, rfl⟩, .refl faults⟩
  exact first.bind_found rest

theorem bind_set {changed : Store} {next : PUnit → Transaction α}
    (rest : Ensures (next ⟨⟩) changed post refusal) :
    Ensures (set changed >>= next) store post refusal := by
  have first : Ensures (set changed) store (fun _ left => left = changed) refusal :=
    fun faults => ⟨rfl, .refl faults⟩
  exact first.bind fun _ _ same => same ▸ rest

theorem mono {body : Transaction α} {strong : α → Store → Prop} {narrow : StoreError → Prop}
    (first : Ensures body store strong narrow)
    (weaker : ∀ value changed, strong value changed → post value changed)
    (wider : ∀ error, narrow error → refusal error) : Ensures body store post refusal :=
  fun faults => (first faults).mono weaker wider

theorem ite {condition : Prop} [Decidable condition] {body other : Transaction α}
    (yes : condition → Ensures body store post refusal)
    (no : ¬ condition → Ensures other store post refusal) :
    Ensures (if condition then body else other) store post refusal := by
  split
  · exact yes ‹_›
  · exact no ‹_›

end Ensures

/-! ## Running -/

theorem execute_eq (body : Transaction α) (store : Store) (faults : Faults) :
    body.execute store faults =
      match (do let value ← body; begin; return value).outcome store faults with
      | (.ok (value, changed), left) => (.ok value, changed, left)
      | (.error error, left) => (.error error, store, left) := rfl

theorem observe_eq (body : Transaction α) (store : Store) (faults : Faults) :
    body.observe store faults =
      match body.outcome store faults with
      | (.ok (value, _), left) => (.ok value, left)
      | (.error error, left) => (.error error, left) := rfl

end Transaction

end WorkspaceGraph
