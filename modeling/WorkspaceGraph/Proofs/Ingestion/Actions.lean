import WorkspaceGraph.Ingestion.Service
import WorkspaceGraph.Proofs.Ingestion.Outcomes
/-!
What comes of an action of the service, part by part.
-/

namespace WorkspaceGraph.Service

variable {α β : Type}

def outcome (action : Service α) (world : World) : Except StoreError α × World :=
  action.run.run world

@[simp] theorem outcome_pure (value : α) (world : World) :
    (pure value : Service α).outcome world = (.ok value, world) := rfl

theorem outcome_bind (action : Service α) (next : α → Service β) (world : World) :
    (action >>= next).outcome world =
      match action.outcome world with
      | (.ok value, left) => (next value).outcome left
      | (.error error, left) => (.error error, left) := by
  simp only [outcome, ExceptT.run_bind, StateT.run_bind]
  rcases action.run.run world with ⟨error | value, left⟩ <;> rfl

theorem outcome_discard (action : Service α) (next : PUnit → Service β) (world : World) :
    (discard action >>= next).outcome world =
      match action.outcome world with
      | (.ok _, left) => (next ⟨⟩).outcome left
      | (.error error, left) => (.error error, left) := by
  have same : discard action = action >>= fun _ => pure PUnit.unit := rfl
  rw [same, outcome_bind, outcome_bind]
  rcases action.outcome world with ⟨error | value, left⟩ <;> rfl

theorem outcome_tryCatch (action : Service α) (handle : StoreError → Service α) (world : World) :
    (tryCatch action handle).outcome world =
      match action.outcome world with
      | (.ok value, left) => (.ok value, left)
      | (.error error, left) => (handle error).outcome left := by
  simp only [outcome, ExceptT.run_tryCatch, StateT.run_bind]
  rcases action.run.run world with ⟨error | value, left⟩ <;> rfl

@[simp] theorem outcome_note (entry : Log.Entry) (world : World) :
    (note entry).outcome world = (.ok (), { world with log := world.log ++ [entry] }) := rfl

@[simp] theorem outcome_get (world : World) :
    (get : Service World).outcome world = (.ok world, world) := rfl

@[simp] theorem outcome_set (world changed : World) :
    (set changed : Service PUnit).outcome world = (.ok ⟨⟩, changed) := rfl

theorem outcome_transact (body : Transaction α) (world : World) :
    (transact body).outcome world =
      ((body.execute world.store world.faults).1,
        { world with
          store := (body.execute world.store world.faults).2.1
          faults := (body.execute world.store world.faults).2.2 }) := by
  simp only [transact, outcome_bind, outcome_get, outcome_set]
  cases (body.execute world.store world.faults).1 <;> rfl

theorem outcome_inspect (body : Transaction α) (world : World) :
    (inspect body).outcome world =
      ((body.observe world.store world.faults).1,
        { world with faults := (body.observe world.store world.faults).2 }) := by
  simp only [inspect, outcome_bind, outcome_get, outcome_set]
  cases (body.observe world.store world.faults).1 <;> rfl

end WorkspaceGraph.Service
