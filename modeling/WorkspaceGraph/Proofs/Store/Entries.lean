import WorkspaceGraph.Proofs.Store.Tables
/-!
Runs by key. Whether a run is added or put in the place of a row, the key has one run afterwards,
and the runs of the other keys are as they were.
-/

namespace WorkspaceGraph.Store

/-- Give a key its run: in the place of the one it has, and otherwise as a new row. -/
def enterRun (run : Run) : List Run → List Run
  | [] => [run]
  | next :: rest => if next.key = run.key then run :: rest else next :: enterRun run rest

theorem enterRun_of_fresh {run : Run} {runs : List Run}
    (fresh : ∀ other ∈ runs, other.key ≠ run.key) : enterRun run runs = runs ++ [run] := by
  induction runs with
  | nil => rfl
  | cons next rest induction =>
      have parts := List.forall_mem_cons.mp fresh
      simp [enterRun, parts.1, induction parts.2]

theorem enterRun_enterRun {run other : Run} (same : other.key = run.key) (runs : List Run) :
    enterRun run (enterRun other runs) = enterRun run runs := by
  induction runs with
  | nil => simp [enterRun, same]
  | cons next rest induction =>
      by_cases replaced : next.key = run.key
      · simp [enterRun, same, replaced]
      · simp [enterRun, same, replaced, induction]

theorem filter_enterRun {run : Run} {key : String} (different : run.key ≠ key)
    (runs : List Run) :
    (enterRun run runs).filter (fun other => other.key = key) =
      runs.filter (fun other => other.key = key) := by
  induction runs with
  | nil => simp [enterRun, different]
  | cons next rest induction =>
      by_cases replaced : next.key = run.key
      · simp [enterRun, replaced, different]
      · simp [enterRun, replaced, List.filter_cons, induction]

theorem find?_enterRun (run : Run) (runs : List Run) (key : String) :
    (enterRun run runs).find? (fun other => other.key = key) =
      if key = run.key then some run else runs.find? fun other => other.key = key := by
  by_cases same : key = run.key
  · subst same
    induction runs with
    | nil => simp [enterRun]
    | cons next rest induction =>
        by_cases replaced : next.key = run.key
        · simp [enterRun, replaced]
        · simpa [enterRun, replaced] using induction
  · induction runs with
    | nil => simp [enterRun, same, Ne.symm same]
    | cons next rest induction =>
        by_cases replaced : next.key = run.key
        · simp [enterRun, replaced, same, Ne.symm same]
        · simp only [same, if_false] at induction
          simp [enterRun, replaced, same, List.find?_cons, induction]

/-- A row that is found by its id is the row of its key. -/
theorem replaceRun_eq_enterRun {changed old : Run} {runs : List Run}
    (keys : (runs.map Run.key).Nodup) (ids : (runs.map Run.id).Nodup) (member : old ∈ runs)
    (id : old.id = changed.id) (key : old.key = changed.key) :
    Transaction.replaceRun changed runs = enterRun changed runs := by
  induction runs with
  | nil => cases member
  | cons next rest induction =>
      have keyParts := List.nodup_cons.mp keys
      have idParts := List.nodup_cons.mp ids
      rcases List.mem_cons.mp member with rfl | member
      · have untouched : ∀ other ∈ rest, other.id ≠ changed.id := fun other otherMember equal =>
          idParts.1 ((equal.trans id.symm) ▸ List.mem_map_of_mem otherMember)
        simp [replaceRun_cons, enterRun, id, key, replaceRun_of_ne untouched]
      · have otherId : next.id ≠ changed.id := fun equal =>
          idParts.1 ((equal.trans id.symm) ▸ List.mem_map_of_mem member)
        have otherKey : next.key ≠ changed.key := fun equal =>
          keyParts.1 ((equal.trans key.symm) ▸ List.mem_map_of_mem member)
        have rest := induction keyParts.2 idParts.2 member
        simp [replaceRun_cons, enterRun, otherId, otherKey, rest]

/-- At most the run of a key is another one: it was inserted, or it was changed in its place and
kept its id. -/
structure Entered (key : String) (before after : List Run) (run : Run) : Prop where
  isOfKey : run.key = key
  keepsId : ∀ old ∈ before, old.key = key → run.id = old.id
  isEntered : after = enterRun run before

theorem Entered.addRun {store : Store} {run : Run} {key : String} (isOfKey : run.key = key)
    (fresh : store.runWithKey? key = none) :
    Entered key store.runs (store.addRun run).runs run where
  isOfKey := isOfKey
  keepsId := fun _ member same => absurd same (key_ne_of_runWithKey?_eq_none fresh member)
  isEntered := by
    subst isOfKey
    exact (enterRun_of_fresh fun _ => key_ne_of_runWithKey?_eq_none fresh).symm

theorem Entered.putRun {store : Store} (sound : store.Sound) {changed old : Run} {key : String}
    (found : store.run? changed.id = some old) (was : old.key = key) (is : changed.key = key) :
    Entered key store.runs (store.putRun changed).runs changed where
  isOfKey := is
  keepsId := by
    intro other member same
    have parts := mem_of_run? found
    have stored := sound.runWithKey?_of_mem member
    rw [same, ← was, sound.runWithKey?_of_mem parts.1] at stored
    rw [← Option.some.inj stored, parts.2]
  isEntered :=
    have parts := mem_of_run? found
    replaceRun_eq_enterRun sound.keys sound.ids parts.1 parts.2 (was.trans is.symm)

theorem Entered.again {key : String} {before middle after : List Run} {run changed : Run}
    (first : Entered key before middle run) (id : changed.id = run.id)
    (same : changed.key = key) (second : after = enterRun changed middle) :
    Entered key before after changed where
  isOfKey := same
  keepsId := fun old member equal => id.trans (first.keepsId old member equal)
  isEntered := by
    rw [second, first.isEntered]
    exact enterRun_enterRun (first.isOfKey.trans same.symm) before

end WorkspaceGraph.Store
