import Mathlib.Data.List.Nodup
import WorkspaceGraph.Proofs.Interleaving.Regular
/-!
Stores that say the same of the same submissions, though at other times and under other ids, and
that go on doing so when one submission more is committed in both.
-/

namespace WorkspaceGraph

/-! ## Ids and times -/

structure Relabel where
  run : RowId → RowId
  version : RowId → RowId

namespace Relabel

def same : Relabel := ⟨id, id⟩

def set (relabel : Relabel) (run newRun version newVersion : RowId) : Relabel where
  run id := if id = run then newRun else relabel.run id
  version id := if id = version then newVersion else relabel.version id

end Relabel

def Run.relabeled (relabel : Relabel) (run : Run) : Run :=
  { run with
    id := relabel.run run.id
    versionId := run.versionId.map relabel.version }

def Run.undated (run : Run) : Run :=
  { run with
    startedAt := ⟨0⟩
    completedAt := run.completedAt.map fun _ => ⟨0⟩ }

def Version.relabeled (relabel : Relabel) (version : Version) : Version :=
  { version with
    id := relabel.version version.id
    runId := relabel.run version.runId }

theorem Run.relabeled_same (run : Run) : run.relabeled .same = run := by
  simp [relabeled, Relabel.same]

theorem Version.relabeled_same (version : Version) : version.relabeled .same = version := rfl

theorem Run.relabeled_set {relabel : Relabel} {run : Run} {other newRun version newVersion : RowId}
    (id : run.id ≠ other) (versionId : run.versionId ≠ some version) :
    run.relabeled (relabel.set other newRun version newVersion) = run.relabeled relabel := by
  have kept : run.versionId.map (relabel.set other newRun version newVersion).version =
      run.versionId.map relabel.version := by
    cases found : run.versionId with
    | none => rfl
    | some named =>
        have different : named ≠ version := fun equal => versionId (by rw [found, equal])
        simp [Relabel.set, different]
  rw [relabeled, kept]
  simp [relabeled, Relabel.set, id]

theorem Version.relabeled_set {relabel : Relabel} {version : Version}
    {run newRun other newVersion : RowId} (id : version.id ≠ other) (runId : version.runId ≠ run) :
    version.relabeled (relabel.set run newRun other newVersion) = version.relabeled relabel := by
  simp [relabeled, Relabel.set, id, runId]

/-! ## Stores -/

namespace Store

/-- What a store says of the runs that are settled, under other ids, is what the other one says;
the order of its runs and the times do not matter. -/
structure Abreast (relabel : Relabel) (settled : Run → Bool) (store other : Store) : Prop where
  runs : ((store.runs.filter settled).map fun run => (run.relabeled relabel).undated).Perm
    (other.runs.map Run.undated)
  versions : store.versions.map (Version.relabeled relabel) = other.versions
  heads : store.heads = other.heads

/-- Up to ids and times the stores are the same, and so is what is told apart by its id. -/
structure Alike (relabel : Relabel) (store other : Store) : Prop where
  runs : (store.runs.map fun run => (run.relabeled relabel).undated).Perm
    (other.runs.map Run.undated)
  versions : store.versions.map (Version.relabeled relabel) = other.versions
  heads : store.heads = other.heads
  runIds : ∀ first ∈ store.runs, ∀ second ∈ store.runs,
    relabel.run first.id = relabel.run second.id → first.id = second.id
  versionIds : ∀ first ∈ store.versions, ∀ second ∈ store.versions,
    relabel.version first.id = relabel.version second.id → first.id = second.id

theorem filter_replaceRun {changed old : Run} {runs : List Run} {before after : Run → Bool}
    (ids : (runs.map Run.id).Nodup) (member : old ∈ runs) (id : old.id = changed.id)
    (was : before old = false) (is : after changed = true)
    (others : ∀ run ∈ runs, run.id ≠ changed.id → after run = before run) :
    ((Transaction.replaceRun changed runs).filter after).Perm (runs.filter before ++ [changed]) := by
  induction runs with
  | nil => cases member
  | cons next rest induction =>
      have parts := List.nodup_cons.mp ids
      have otherParts := List.forall_mem_cons.mp others
      rw [replaceRun_cons]
      rcases List.mem_cons.mp member with rfl | member
      · have untouched : ∀ run ∈ rest, run.id ≠ changed.id := fun run runMember equal =>
          parts.1 ((equal.trans id.symm) ▸ List.mem_map_of_mem runMember)
        have same : rest.filter after = rest.filter before := List.filter_congr fun run runMember =>
          otherParts.2 run runMember (untouched run runMember)
        rw [if_pos id, replaceRun_of_ne untouched, List.filter_cons_of_pos is,
          List.filter_cons_of_neg (by simp [was]), same]
        exact (List.perm_append_singleton changed _).symm
      · have different : next.id ≠ changed.id := fun equal =>
          parts.1 ((equal.trans id.symm) ▸ List.mem_map_of_mem member)
        have further := induction parts.2 member otherParts.2
        rw [if_neg different, List.filter_cons, List.filter_cons, otherParts.1 different]
        split
        · exact further.cons next
        · exact further

end Store

/-! ## Stores side by side -/

namespace Store.Abreast

variable {relabel : Relabel} {before after : Run → Bool} {store other : Store}

theorem refl (all : ∀ run ∈ store.runs, after run = true) : Abreast .same after store store where
  runs := by
    rw [List.filter_eq_self.mpr all]
    simp [Run.relabeled_same]
  versions := by simp [funext Version.relabeled_same]
  heads := rfl

theorem addRun (abreast : Abreast relabel before store other) {run : Run}
    (hidden : after run = false) (others : ∀ row ∈ store.runs, after row = before row) :
    Abreast relabel after (store.addRun run) other where
  runs := by
    have same : (store.addRun run).runs.filter after = store.runs.filter before := by
      rw [Store.addRun, List.filter_append, List.filter_congr others]
      simp [hidden]
    rw [same]
    exact abreast.runs
  versions := abreast.versions
  heads := abreast.heads

theorem nextFor_eq (abreast : Abreast relabel before store other) (gapless : store.Gapless)
    (otherGapless : other.Gapless) (submission : Submission) :
    store.nextFor submission = other.nextFor submission := by
  have next := gapless.nextNumber submission.workspaceId
  rw [head?, abreast.heads, ← head?, otherGapless.nextNumber] at next
  rw [nextFor, nextFor]
  omega

theorem fresh (abreast : Abreast relabel before store other) {key : String}
    (hidden : ∀ run, run.key = key → before run = false) : other.runWithKey? key = none := by
  apply runWithKey?_eq_none.mpr
  intro run member isOf
  have listed : run.undated ∈ other.runs.map Run.undated := List.mem_map_of_mem member
  rw [← abreast.runs.mem_iff] at listed
  rcases List.mem_map.mp listed with ⟨row, rowMember, same⟩
  have sameKey : row.key = run.key := by
    have keys := congrArg Run.key same
    exact keys
  have shown := (List.mem_filter.mp rowMember).2
  rw [hidden row (sameKey.trans isOf)] at shown
  cases shown

theorem commitRun (abreast : Abreast relabel before store other) (regular : store.Regular)
    (otherRegular : other.Regular) {submission : Submission} {id : RowId} {started : Instant}
    (stored : store.run? id = some (Acquisition.row id 1 started submission))
    (hidden : before (Acquisition.row id 1 started submission) = false)
    (shown : ∀ linkage now,
      after (Commit.row now linkage (Acquisition.row id 1 started submission)) = true)
    (others : ∀ row ∈ store.runs, row.id ≠ id → after row = before row) (now again : Instant) :
    Abreast
      (relabel.set id (.issued other.issued) (.issued store.issued) (.issued (other.issued + 1)))
      after
      (store.commitRun now (Acquisition.row id 1 started submission) (store.nextFor submission)
        submission.snapshot)
      (other.ingestNew again submission) where
  runs := by
    have member := (mem_of_run? stored).1
    have isShown := shown ⟨.issued store.issued, (store.nextFor submission : Nat)⟩ now
    have replaced := filter_replaceRun regular.sound.ids member (by rfl) hidden isShown others
    have old : ∀ run ∈ store.runs.filter before,
        (run.relabeled (relabel.set id (.issued other.issued) (.issued store.issued)
          (.issued (other.issued + 1)))).undated = (run.relabeled relabel).undated := by
      intro run runMember
      have parts := List.mem_filter.mp runMember
      have different : run.id ≠ id := by
        intro same
        rw [regular.sound.eq_of_id parts.1 member same, hidden] at parts
        cases parts.2
      rw [Run.relabeled_set different (regular.versionId_ne_issued parts.1)]
    have mapped := replaced.map fun run => (run.relabeled (relabel.set id (.issued other.issued)
      (.issued store.issued) (.issued (other.issued + 1)))).undated
    rw [List.map_append, List.map_congr_left old] at mapped
    rw [runs_ingestNew otherRegular.sound, List.map_append]
    refine mapped.trans (abreast.runs.append ?_)
    have next := abreast.nextFor_eq regular.gapless otherRegular.gapless submission
    simp [Run.relabeled, Run.undated, Commit.row, Acquisition.row, Relabel.set, next]
  versions := by
    have unfinished : (Acquisition.row id 1 started submission).status ≠ .succeeded := by
      simp [Acquisition.row]
    have old : ∀ version ∈ store.versions,
        version.relabeled (relabel.set id (.issued other.issued) (.issued store.issued)
          (.issued (other.issued + 1))) = version.relabeled relabel := by
      intro version member
      exact Version.relabeled_set (regular.minted.id_ne_issued member)
        (regular.runId_ne (mem_of_run? stored).1 unfinished member)
    have next := abreast.nextFor_eq regular.gapless otherRegular.gapless submission
    rw [commitRun_versions, List.map_append, List.map_congr_left old, abreast.versions]
    simp [ingestNew, Version.relabeled, Relabel.set, Commit.version, Acquisition.row, next,
      Store.addRun]
  heads := by
    have next := abreast.nextFor_eq regular.gapless otherRegular.gapless submission
    have made : ∀ (store : Store) now run number, (store.commitRun now run number
        submission.snapshot).heads = Transaction.setHead ⟨run.workspaceId, number⟩ store.heads :=
      fun _ _ _ _ => rfl
    rw [ingestNew, made, made, abreast.heads, next]
    rfl

end Store.Abreast

end WorkspaceGraph
