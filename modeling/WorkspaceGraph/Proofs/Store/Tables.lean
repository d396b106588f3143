import WorkspaceGraph.Store.Transaction
/-!
The tables after a change of one row: what is found in them then, and that keys and ids stay
unique.
-/

namespace WorkspaceGraph

namespace Store

/-! ## Changes of one row -/

def addRun (store : Store) (run : Run) : Store :=
  { store with runs := store.runs ++ [run], issued := store.issued + 1 }

def putRun (store : Store) (run : Run) : Store :=
  { store with runs := Transaction.replaceRun run store.runs }

def addVersion (store : Store) (version : Version) : Store :=
  { store with versions := store.versions ++ [version], issued := store.issued + 1 }

def putHead (store : Store) (head : Head) : Store :=
  { store with heads := Transaction.setHead head store.heads }

/-! ## Rows that are found -/

theorem mem_of_run? {store : Store} {id : RowId} {run : Run} (found : store.run? id = some run) :
    run ∈ store.runs ∧ run.id = id :=
  ⟨List.mem_of_find?_eq_some found, by simpa using List.find?_some found⟩

theorem mem_of_runWithKey? {store : Store} {key : String} {run : Run}
    (found : store.runWithKey? key = some run) : run ∈ store.runs ∧ run.key = key :=
  ⟨List.mem_of_find?_eq_some found, by simpa using List.find?_some found⟩

theorem key_ne_of_runWithKey?_eq_none {store : Store} {key : String}
    (fresh : store.runWithKey? key = none) {run : Run} (member : run ∈ store.runs) :
    run.key ≠ key := by
  have misses := List.find?_eq_none.mp fresh run member
  simpa using misses

theorem runWithKey?_eq_none {store : Store} {key : String} :
    store.runWithKey? key = none ↔ ∀ run ∈ store.runs, run.key ≠ key := by
  simp [runWithKey?]

theorem find?_of_mem {α β : Type} [DecidableEq β] (value : α → β) {rows : List α}
    (nodup : (rows.map value).Nodup) {row : α} (member : row ∈ rows) :
    rows.find? (fun other => value other = value row) = some row := by
  induction rows with
  | nil => cases member
  | cons next rest induction =>
      have parts := List.nodup_cons.mp nodup
      rcases List.mem_cons.mp member with equal | member
      · subst row
        simp
      · have different : value next ≠ value row := fun equal =>
          parts.1 (equal ▸ List.mem_map_of_mem member)
        simpa [different] using induction parts.2 member

theorem filter_eq_toList_find? {α β : Type} [DecidableEq β] (value : α → β) {rows : List α}
    (nodup : (rows.map value).Nodup) (wanted : β) :
    rows.filter (fun row => value row = wanted) =
      (rows.find? fun row => value row = wanted).toList := by
  induction rows with
  | nil => rfl
  | cons next rest induction =>
      have parts := List.nodup_cons.mp nodup
      by_cases same : value next = wanted
      · have none : rest.filter (fun row => value row = wanted) = [] := by
          apply List.filter_eq_nil_iff.mpr
          intro row member
          have different : value row ≠ wanted := fun equal =>
            parts.1 (same.trans equal.symm ▸ List.mem_map_of_mem member)
          simpa using different
        simp [same, none]
      · simpa [same] using induction parts.2

/-- In a sound store keys and ids of runs are unique, every id was issued by the store, and every
run has had an attempt. -/
structure Sound (store : Store) : Prop where
  keys : (store.runs.map Run.key).Nodup
  ids : (store.runs.map Run.id).Nodup
  issued : ∀ run ∈ store.runs, ∃ number < store.issued, run.id = .issued number
  attempts : ∀ run ∈ store.runs, 1 ≤ run.attempts

namespace Sound

variable {store : Store}

theorem empty : Store.empty.Sound where
  keys := List.nodup_nil
  ids := List.nodup_nil
  issued := by simp [Store.empty]
  attempts := by simp [Store.empty]

theorem run?_of_mem (sound : store.Sound) {run : Run} (member : run ∈ store.runs) :
    store.run? run.id = some run :=
  find?_of_mem Run.id sound.ids member

theorem runWithKey?_of_mem (sound : store.Sound) {run : Run} (member : run ∈ store.runs) :
    store.runWithKey? run.key = some run :=
  find?_of_mem Run.key sound.keys member

theorem eq_of_id (sound : store.Sound) {run other : Run} (member : run ∈ store.runs)
    (otherMember : other ∈ store.runs) (equal : run.id = other.id) : run = other := by
  have found := sound.run?_of_mem member
  rw [equal, sound.run?_of_mem otherMember] at found
  exact (Option.some.inj found).symm

theorem eq_of_key (sound : store.Sound) {run other : Run} (member : run ∈ store.runs)
    (otherMember : other ∈ store.runs) (equal : run.key = other.key) : run = other := by
  have found := sound.runWithKey?_of_mem member
  rw [equal, sound.runWithKey?_of_mem otherMember] at found
  exact (Option.some.inj found).symm

theorem id_ne_issued (sound : store.Sound) {run : Run} (member : run ∈ store.runs) :
    run.id ≠ .issued store.issued := by
  intro equal
  rcases sound.issued run member with ⟨number, below, isIssued⟩
  rw [equal] at isIssued
  injection isIssued with isNumber
  omega

end Sound

/-! ## After a run was added -/

theorem run?_addRun_of_ne {store : Store} {run : Run} {id : RowId} (different : id ≠ run.id) :
    (store.addRun run).run? id = store.run? id := by
  simp [run?, addRun, List.find?_append, different.symm]

theorem Sound.run?_addRun {store : Store} (sound : store.Sound) {run : Run}
    (id : run.id = .issued store.issued) : (store.addRun run).run? run.id = some run := by
  have absent : store.runs.find? (fun other => other.id = run.id) = none := by
    apply List.find?_eq_none.mpr
    intro other member
    simpa [id] using sound.id_ne_issued member
  simp [run?, addRun, List.find?_append, absent]

theorem Sound.addRun {store : Store} (sound : store.Sound) {run : Run}
    (id : run.id = .issued store.issued) (fresh : store.runWithKey? run.key = none)
    (attempts : 1 ≤ run.attempts) : (store.addRun run).Sound where
  keys := by
    simp only [Store.addRun, List.map_append, List.map_cons, List.map_nil]
    apply List.nodup_append.mpr
    refine ⟨sound.keys, by simp, ?_⟩
    intro key keyMember other otherMember equal
    rcases List.mem_map.mp keyMember with ⟨old, member, rfl⟩
    rw [List.mem_singleton.mp otherMember] at equal
    exact key_ne_of_runWithKey?_eq_none fresh member equal
  ids := by
    simp only [Store.addRun, List.map_append, List.map_cons, List.map_nil]
    apply List.nodup_append.mpr
    refine ⟨sound.ids, by simp, ?_⟩
    intro oldId idMember other otherMember equal
    rcases List.mem_map.mp idMember with ⟨old, member, rfl⟩
    rw [List.mem_singleton.mp otherMember, id] at equal
    exact sound.id_ne_issued member equal
  issued := by
    intro other member
    rcases List.mem_append.mp member with member | member
    · rcases sound.issued other member with ⟨number, below, equal⟩
      exact ⟨number, Nat.lt_succ_of_lt below, equal⟩
    · rw [List.mem_singleton.mp member]
      exact ⟨store.issued, Nat.lt_succ_self _, id⟩
  attempts := by
    intro other member
    rcases List.mem_append.mp member with member | member
    · exact sound.attempts other member
    · rw [List.mem_singleton.mp member]
      exact attempts

/-! ## After a run got another row -/

theorem run?_putRun_of_ne {store : Store} {changed : Run} {id : RowId}
    (different : id ≠ changed.id) : (store.putRun changed).run? id = store.run? id := by
  simp only [run?, putRun, Transaction.replaceRun]
  induction store.runs with
  | nil => rfl
  | cons run rest induction =>
      simp only [List.map_cons, List.find?_cons, induction]
      by_cases same : run.id = changed.id
      · simp [same, different.symm]
      · simp [same]

theorem mem_putRun {store : Store} {changed old run : Run}
    (found : store.run? changed.id = some old) :
    run ∈ (store.putRun changed).runs ↔
      run = changed ∨ run ∈ store.runs ∧ run.id ≠ changed.id := by
  simp only [putRun, Transaction.replaceRun, List.mem_map]
  constructor
  · rintro ⟨row, member, equal⟩
    split at equal
    · exact .inl equal.symm
    · subst equal
      exact .inr ⟨member, ‹_›⟩
  · rintro (rfl | ⟨member, different⟩)
    · have parts := mem_of_run? found
      exact ⟨old, parts.1, by simp [parts.2]⟩
    · exact ⟨run, member, by simp [different]⟩

theorem map_replaceRun {β : Type} (value : Run → β) {changed : Run} {runs : List Run}
    (same : ∀ run ∈ runs, run.id = changed.id → value run = value changed) :
    (Transaction.replaceRun changed runs).map value = runs.map value := by
  rw [Transaction.replaceRun, List.map_map]
  apply List.map_congr_left
  intro run member
  by_cases equal : run.id = changed.id
  · simp [equal, same run member equal]
  · simp [equal]

theorem replaceRun_cons (changed next : Run) (rest : List Run) :
    Transaction.replaceRun changed (next :: rest) =
      (if next.id = changed.id then changed else next) :: Transaction.replaceRun changed rest :=
  rfl

theorem replaceRun_of_ne {changed : Run} {runs : List Run}
    (untouched : ∀ run ∈ runs, run.id ≠ changed.id) :
    Transaction.replaceRun changed runs = runs := by
  have kept : Transaction.replaceRun changed runs = runs.map fun run => run :=
    List.map_congr_left fun run member => if_neg (untouched run member)
  rw [kept, List.map_id']

theorem replaceRun_concat {changed last : Run} {runs : List Run}
    (untouched : ∀ run ∈ runs, run.id ≠ changed.id) (same : last.id = changed.id) :
    Transaction.replaceRun changed (runs ++ [last]) = runs ++ [changed] := by
  have kept := replaceRun_of_ne untouched
  rw [Transaction.replaceRun] at kept ⊢
  rw [List.map_append, kept, List.map_singleton, if_pos same]

theorem Sound.putRun {store : Store} (sound : store.Sound) {changed old : Run}
    (found : store.run? changed.id = some old) (key : changed.key = old.key)
    (attempts : 1 ≤ changed.attempts) : (store.putRun changed).Sound where
  keys := by
    have parts := mem_of_run? found
    rw [Store.putRun, map_replaceRun Run.key]
    · exact sound.keys
    · intro run member equal
      rw [key, sound.eq_of_id member parts.1 (equal.trans parts.2.symm)]
  ids := by
    rw [Store.putRun, map_replaceRun Run.id fun _ _ equal => equal]
    exact sound.ids
  issued := by
    intro run member
    rcases (mem_putRun found).mp member with rfl | ⟨member, -⟩
    · have parts := mem_of_run? found
      exact parts.2 ▸ sound.issued old parts.1
    · exact sound.issued run member
  attempts := by
    intro run member
    rcases (mem_putRun found).mp member with rfl | ⟨member, -⟩
    · exact attempts
    · exact sound.attempts run member

theorem Sound.run?_putRun {store : Store} (sound : store.Sound) {changed old : Run}
    (found : store.run? changed.id = some old) (key : changed.key = old.key)
    (attempts : 1 ≤ changed.attempts) :
    (store.putRun changed).run? changed.id = some changed :=
  (sound.putRun found key attempts).run?_of_mem ((mem_putRun found).mpr (.inl rfl))

/-! ## After a version was added -/

theorem Sound.addVersion {store : Store} (sound : store.Sound) (version : Version) :
    (store.addVersion version).Sound where
  keys := sound.keys
  ids := sound.ids
  issued := by
    intro run member
    rcases sound.issued run member with ⟨number, below, equal⟩
    exact ⟨number, Nat.lt_succ_of_lt below, equal⟩
  attempts := sound.attempts

/-! ## After a head was set -/

theorem Sound.putHead {store : Store} (sound : store.Sound) (head : Head) :
    (store.putHead head).Sound :=
  ⟨sound.keys, sound.ids, sound.issued, sound.attempts⟩

theorem head?_putHead (store : Store) (head : Head) (workspaceId : String) :
    (store.putHead head).head? workspaceId =
      if workspaceId = head.workspaceId then some head else store.head? workspaceId := by
  simp only [head?, putHead]
  induction store.heads with
  | nil =>
      by_cases same : workspaceId = head.workspaceId
      · simp [Transaction.setHead, same]
      · simp [Transaction.setHead, same, Ne.symm same]
  | cons next rest induction =>
      by_cases replaced : next.workspaceId = head.workspaceId
      · by_cases same : workspaceId = head.workspaceId
        · simp [Transaction.setHead, replaced, same]
        · simp [Transaction.setHead, replaced, same, Ne.symm same]
      · by_cases same : workspaceId = head.workspaceId
        · simpa [Transaction.setHead, replaced, same] using induction
        · simp only [Transaction.setHead, replaced, if_false, List.find?_cons, induction, same]

theorem map_setHead (head : Head) (heads : List Head) :
    (Transaction.setHead head heads).map Head.workspaceId =
      if head.workspaceId ∈ heads.map Head.workspaceId then heads.map Head.workspaceId
      else heads.map Head.workspaceId ++ [head.workspaceId] := by
  induction heads with
  | nil => simp [Transaction.setHead]
  | cons next rest induction =>
      by_cases replaced : next.workspaceId = head.workspaceId
      · simp [Transaction.setHead, replaced]
      · simp only [Transaction.setHead, replaced, if_false, List.map_cons, induction,
          List.mem_cons, Ne.symm replaced, false_or]
        split <;> simp

theorem nodup_setHead (head : Head) {heads : List Head}
    (nodup : (heads.map Head.workspaceId).Nodup) :
    ((Transaction.setHead head heads).map Head.workspaceId).Nodup := by
  rw [map_setHead]
  split
  · exact nodup
  · refine List.nodup_append.mpr ⟨nodup, by simp, ?_⟩
    intro workspaceId member other otherMember equal
    rw [List.mem_singleton.mp otherMember] at equal
    exact ‹head.workspaceId ∉ _› (equal ▸ member)

end Store

end WorkspaceGraph
