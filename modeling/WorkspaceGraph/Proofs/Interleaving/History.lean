import WorkspaceGraph.Proofs.Interleaving.Move
/-!
The history of a workspace: its versions in the order of their commits. They are numbered from one
without a gap, and the head tells how many there are, whatever the workers do to one another.
-/

namespace WorkspaceGraph

namespace Store

def history (store : Store) (workspaceId : String) : List Version :=
  store.versions.filter fun version => version.workspaceId = workspaceId

theorem history_commitRun (store : Store) (now : Instant) (run : Run) (number : Nat)
    (snapshot : Snapshot) (workspaceId : String) :
    (store.commitRun now run number snapshot).history workspaceId =
      if run.workspaceId = workspaceId then
        store.history workspaceId ++ [Commit.version (.issued store.issued) run.id
          run.workspaceId run.payloadHash number snapshot]
      else store.history workspaceId := by
  simp only [history, commitRun_versions, List.filter_append]
  by_cases same : run.workspaceId = workspaceId
  · simp [Commit.version, same]
  · simp [Commit.version, same]

theorem head?_commitRun (store : Store) (now : Instant) (run : Run) (number : Nat)
    (snapshot : Snapshot) (workspaceId : String) :
    (store.commitRun now run number snapshot).head? workspaceId =
      if workspaceId = run.workspaceId then some ⟨run.workspaceId, number⟩
      else store.head? workspaceId :=
  head?_putHead (store.addVersion _) _ workspaceId

theorem version?_eq_none {store : Store} {workspaceId : String} {number : Nat} :
    store.version? workspaceId number = none ↔
      number ∉ (store.history workspaceId).map Version.number := by
  simp only [version?, history, List.find?_eq_none, List.mem_map, List.mem_filter]
  constructor
  · rintro absent ⟨version, ⟨member, workspace⟩, isNumber⟩
    exact absent version member (by simpa [isNumber] using workspace)
  · intro absent version member found
    simp only [Bool.and_eq_true, decide_eq_true_eq] at found
    exact absent ⟨version, ⟨member, by simpa using found.1⟩, found.2⟩

/-! ## Numbers in order -/

theorem insertNumber_of_le {number : Nat} {numbers : List Nat}
    (least : ∀ other ∈ numbers, number ≤ other) :
    insertNumber number numbers = number :: numbers := by
  cases numbers with
  | nil => rfl
  | cons next rest => simp [insertNumber, least next]

theorem foldr_insertNumber {numbers : List Nat} (ascending : numbers.Pairwise (· ≤ ·)) :
    numbers.foldr insertNumber [] = numbers := by
  induction numbers with
  | nil => rfl
  | cons number rest induction =>
      have parts := List.pairwise_cons.mp ascending
      rw [List.foldr_cons, induction parts.2]
      exact insertNumber_of_le parts.1

/-! ## Histories without gaps -/

/-- The versions of every workspace are numbered from one, and its head tells the last number. -/
structure Gapless (store : Store) : Prop where
  numbers : ∀ workspaceId, (store.history workspaceId).map Version.number =
    List.range' 1 (store.history workspaceId).length
  head : ∀ workspaceId, store.head? workspaceId =
    if (store.history workspaceId).length = 0 then none
    else some ⟨workspaceId, (store.history workspaceId).length⟩
  heads : (store.heads.map Head.workspaceId).Nodup

namespace Gapless

variable {store : Store}

theorem empty : Store.empty.Gapless where
  numbers := by simp [history, Store.empty]
  head := by simp [head?, history, Store.empty]
  heads := List.nodup_nil

theorem nextNumber (gapless : store.Gapless) (workspaceId : String) :
    Commit.nextNumber (store.head? workspaceId) =
      ((store.history workspaceId).length + 1 : Nat) := by
  rw [gapless.head, Commit.nextNumber]
  split
  · simp [*]
  · simp

/-- A number after the head of an earlier moment that is still free comes after the head. -/
theorem number_eq (gapless : store.Gapless) {earlier : Store} (was : earlier.Gapless)
    {workspaceId : String} (grown : earlier.history workspaceId <+: store.history workspaceId)
    {number : Nat} (next : Commit.nextNumber (earlier.head? workspaceId) = number)
    (free : store.version? workspaceId number = none) :
    number = (store.history workspaceId).length + 1 := by
  rw [was.nextNumber] at next
  have notTaken := version?_eq_none.mp free
  rw [gapless.numbers, List.mem_range'_1] at notTaken
  have shorter := grown.length_le
  omega

theorem versionNumbers (gapless : store.Gapless) (workspaceId : String) :
    store.versionNumbers workspaceId = List.range' 1 (store.history workspaceId).length := by
  have listed : store.versionNumbers workspaceId =
      ((store.history workspaceId).map Version.number).foldr insertNumber [] := rfl
  rw [listed, gapless.numbers]
  exact foldr_insertNumber ((List.pairwise_lt_range' 1).imp Nat.le_of_lt)

theorem filter_heads (gapless : store.Gapless) (workspaceId : String) :
    store.heads.filter (fun head => head.workspaceId = workspaceId) =
      if (store.history workspaceId).length = 0 then []
      else [⟨workspaceId, (store.history workspaceId).length⟩] := by
  have unique := filter_eq_toList_find? Head.workspaceId gapless.heads workspaceId
  have head := gapless.head workspaceId
  rw [head?] at head
  rw [unique, head]
  split <;> rfl

theorem commitRun (gapless : store.Gapless) (now : Instant) (run : Run) {number : Nat}
    (next : number = (store.history run.workspaceId).length + 1) (snapshot : Snapshot) :
    (store.commitRun now run number snapshot).Gapless where
  numbers := by
    intro workspaceId
    rw [history_commitRun]
    split
    · rename_i same
      subst same
      rw [List.map_append, gapless.numbers, List.length_append, List.length_singleton,
        List.range'_1_concat]
      simp [Commit.version, next, Nat.add_comm]
    · exact gapless.numbers workspaceId
  head := by
    intro workspaceId
    by_cases same : workspaceId = run.workspaceId
    · simp [history_commitRun, head?_commitRun, same, next]
    · simpa [history_commitRun, head?_commitRun, same, Ne.symm same] using
        gapless.head workspaceId
  heads := nodup_setHead _ gapless.heads

end Gapless

end Store

/-! ## What a move does to a history -/

/-- The histories are as they were, but for one version that may have come to one of them. -/
def Store.Grows (store left : Store) : Prop :=
  ∀ workspaceId, left.history workspaceId = store.history workspaceId ∨
    ∃ version, left.history workspaceId = store.history workspaceId ++ [version] ∧
      version.number = (store.history workspaceId).length + 1

theorem Store.Grows.refl (store : Store) : store.Grows store := fun _ => .inl rfl

theorem Store.Grows.isPrefix {store left : Store} (grows : store.Grows left)
    (workspaceId : String) : store.history workspaceId <+: left.history workspaceId := by
  rcases grows workspaceId with same | ⟨version, appended, -⟩
  · exact same.symm ▸ List.prefix_refl _
  · rw [appended]
    exact List.prefix_append ..

theorem Store.Gapless.of_eq {store left : Store} (gapless : store.Gapless)
    (versions : left.versions = store.versions) (heads : left.heads = store.heads) :
    left.Gapless ∧ store.Grows left := by
  have history : left.history = store.history := by
    funext workspaceId
    rw [Store.history, versions, Store.history]
  have head : left.head? = store.head? := by
    funext workspaceId
    rw [Store.head?, heads, Store.head?]
  refine ⟨⟨?_, ?_, heads ▸ gapless.heads⟩, fun workspaceId => .inl (by rw [history])⟩
  · rw [history]
    exact gapless.numbers
  · rw [history, head]
    exact gapless.head

/-- A move leaves a history as it is or appends the version with the next number. -/
theorem Move.history {worker : Worker} {earlier store left : Store} {stage : Stage}
    (move : Move worker (earlier.head? worker.submission.workspaceId) store stage left)
    (gapless : store.Gapless) (was : earlier.Gapless)
    (grown : ∀ workspaceId, earlier.history workspaceId <+: store.history workspaceId) :
    left.Gapless ∧ store.Grows left := by
  cases move with
  | committed now run attempt left number stage found workspace payload processing isNumber free =>
      -- The number comes after the head of an earlier moment. As it is free, nothing was
      -- committed in the meantime.
      rw [← workspace] at isNumber
      have next := gapless.number_eq was (grown run.workspaceId) isNumber free
      refine ⟨gapless.commitRun now run next _, fun workspaceId => ?_⟩
      rw [Store.history_commitRun]
      split
      · rename_i same
        subst same
        exact .inr ⟨_, rfl, next⟩
      · exact .inl rfl
  | begun | begunAgain | failureRecorded => exact gapless.of_eq rfl rfl
  | replayed | toldToWait | keyLost | refused | committedBefore | numberLost | commitFailed
  | failureDropped | rested => exact gapless.of_eq rfl rfl

/-! ## Histories of the system -/

namespace System

/-- There is no gap now, there was none before, and nothing of a history was ever taken back. -/
structure Recorded (system : System) : Prop where
  gapless : system.store.Gapless
  were : ∀ earlier ∈ system.past, earlier.Gapless
  grown : ∀ earlier ∈ system.past, ∀ workspaceId,
    earlier.history workspaceId <+: system.store.history workspaceId

theorem Recorded.initial : initial.Recorded where
  gapless := .empty
  were := by simp [System.initial]
  grown := by simp [System.initial]

theorem Recorded.of_mem {system : System} (recorded : system.Recorded) {earlier : Store}
    (member : earlier ∈ system.store :: system.past) :
    earlier.Gapless ∧
      ∀ workspaceId, earlier.history workspaceId <+: system.store.history workspaceId := by
  rcases List.mem_cons.mp member with rfl | member
  · exact ⟨recorded.gapless, fun _ => List.prefix_refl _⟩
  · exact ⟨recorded.were earlier member, recorded.grown earlier member⟩

theorem Recorded.step {system next : System} {number : Nat} (recorded : system.Recorded)
    (step : Step system number next) : next.Recorded ∧ system.store.Grows next.store := by
  cases step with
  | nothing => exact ⟨recorded, .refl _⟩
  | arrived | cutOff => exact ⟨⟨recorded.gapless, recorded.were, recorded.grown⟩, .refl _⟩
  | moved worker earlier stage store found member move =>
      have was := recorded.of_mem member
      have moved := move.history recorded.gapless was.1 was.2
      refine ⟨⟨moved.1, fun earlier member => (recorded.of_mem member).1, ?_⟩, moved.2⟩
      intro earlier member workspaceId
      exact ((recorded.of_mem member).2 workspaceId).trans (moved.2.isPrefix workspaceId)

theorem recorded_after (events : List Event) : (after events).Recorded :=
  after_induction Recorded (fun _ recorded step => (recorded.step step).1) .initial events

/-- At all times the versions of a workspace are numbered from one without a gap, its only head
tells the last number, and there is no head as long as there is no version. Whatever happens next
appends the version with the next number, or none. -/
theorem versions_gapless (events : List Event) (workspaceId : String) :
    ∃ count,
      ((after events).store.history workspaceId).map Version.number = List.range' 1 count ∧
      (after events).store.versionNumbers workspaceId = List.range' 1 count ∧
      (after events).store.heads.filter (fun head => head.workspaceId = workspaceId) =
        (if count = 0 then [] else [⟨workspaceId, count⟩]) ∧
      ∀ event,
        ((after events).step event).store.history workspaceId =
            (after events).store.history workspaceId ∨
          ∃ version, version.number = count + 1 ∧
            ((after events).step event).store.history workspaceId =
              (after events).store.history workspaceId ++ [version] := by
  have recorded := recorded_after events
  have gapless := recorded.gapless
  refine ⟨((after events).store.history workspaceId).length, gapless.numbers workspaceId,
    gapless.versionNumbers workspaceId, gapless.filter_heads workspaceId, fun event => ?_⟩
  have grows := (recorded.step (step_step (sound_after events) event)).2
  rcases grows workspaceId with same | ⟨version, appended, next⟩
  · exact .inl same
  · exact .inr ⟨version, next, appended⟩

end System

end WorkspaceGraph
