import WorkspaceGraph.Proofs.Database.Rows
import WorkspaceGraph.Proofs.Interleaving.Regular
import WorkspaceGraph.Proofs.Interleaving.Sources
import WorkspaceGraph.Proofs.Scan.Canonical
import WorkspaceGraph.Proofs.Snapshot.Rearranged
/-!
What was submitted is kept. Whoever is told of a version that was not there before has stored the
graph of the submission as that version, and its rows stay as they are whatever happens later.
-/

namespace WorkspaceGraph

open Database

/-! ## The rows of a version -/

structure Store.Holds (store : Store) (version : Version) (run : Run) (snapshot : Snapshot) :
    Prop where
  versionRow : rowsWithId version.id store.versionRows = [version.row]
  runRow : rowsWithId run.id store.runRows = [run.row]
  configPath : version.row.cell "workspace_config_path" = .text snapshot.workspaceConfigPath
  counts : version.row.counts? = some ⟨snapshot.projects.length, snapshot.libraries.length,
    snapshot.components.length, snapshot.edges.length⟩
  sameCounts : run.row.counts? = version.row.counts?
  projects : rowsOf version.id store.projectRows =
    snapshot.projects.map (Snapshot.ProjectNode.row version.id)
  components : rowsOf version.id store.componentRows =
    snapshot.components.map (Snapshot.ComponentNode.row version.id)
  edges : rowsOf version.id store.edgeRows =
    snapshot.edges.map (Snapshot.Edge.row version.id)

theorem Version.Shows.holds {version : Version} {snapshot : Snapshot} {store : Store} {run : Run}
    (shows : version.Shows snapshot) (regular : store.Regular)
    (member : version ∈ store.versions) (runMember : run ∈ store.runs)
    (names : run.Names version) : store.Holds version run snapshot where
  versionRow := rowsWithId_map Version.id?_row regular.minted.ids member
  runRow := rowsWithId_map Run.id?_row regular.sound.ids runMember
  configPath := congrArg Cell.text shows.configPath
  counts := by
    rw [Version.counts?_row, shows.counts]
    rfl
  sameCounts := by
    rw [Run.counts?_row, Version.counts?_row, names.counts]
  projects := by
    rw [← shows.projects]
    exact rowsOf_flatMap (fun _ _ => rfl) regular.minted.ids member
  components := by
    rw [← shows.components]
    exact rowsOf_flatMap (fun _ _ => rfl) regular.minted.ids member
  edges := by
    rw [← shows.edges]
    exact rowsOf_flatMap (fun _ _ => rfl) regular.minted.ids member

/-! ## Reading the rows -/

structure Store.Listing (store : Store) (version : RowId) (projects components edges : List Row) :
    Prop where
  projects : projects.Perm (rowsOf version store.projectRows)
  components : components.Perm (rowsOf version store.componentRows)
  edges : edges.Perm (rowsOf version store.edgeRows)

namespace Database

section Reading

variable {α : Type} {entries : List α} {row : α → Row} {read? : Row → Option α}

theorem filterMap_rows (reads : ∀ entry, read? (row entry) = some entry) (entries : List α) :
    (entries.map row).filterMap read? = entries := by
  rw [List.filterMap_map, show read? ∘ row = some from funext reads, List.filterMap_some]

theorem mapM_of_perm (reads : ∀ entry, read? (row entry) = some entry) {rows : List Row}
    (order : rows.Perm (entries.map row)) : rows.mapM read? = some (rows.filterMap read?) := by
  have each : ∀ next ∈ rows, ∃ entry, read? next = some entry := by
    intro next member
    rcases List.mem_map.mp (order.mem_iff.mp member) with ⟨entry, _, rfl⟩
    exact ⟨entry, reads entry⟩
  clear order
  induction rows with
  | nil => rfl
  | cons next rest induction =>
      have parts := List.forall_mem_cons.mp each
      rcases parts.1 with ⟨entry, read⟩
      rw [List.mapM_cons, List.filterMap_cons, read, induction parts.2]
      rfl

theorem filterMap_perm (reads : ∀ entry, read? (row entry) = some entry) {rows : List Row}
    (order : rows.Perm (entries.map row)) : entries.Perm (rows.filterMap read?) := by
  have found := order.filterMap read?
  rw [filterMap_rows reads] at found
  exact found.symm

end Reading

end Database

namespace Snapshot

/-- What rows tell of a snapshot: the libraries are those among its projects. -/
def told (snapshot : Snapshot) : Snapshot :=
  { snapshot with libraries := snapshot.projects.filterMap LibraryNode.ofNode? }

variable {snapshot : Snapshot}

theorem canonical_told (canonical : snapshot.canonical = snapshot) :
    snapshot.told.canonical = snapshot.told := by
  have sorted : snapshot.projects.Pairwise (Order.AtMost fun project => [project.name]) := by
    rw [← canonical, Snapshot.canonical, List.pairwise_map]
    exact Order.sortOn_sorted (fun project : ProjectNode => [project.name]) _
  have libraries : Order.sortOn (fun library => [library.name]) snapshot.told.libraries =
      snapshot.told.libraries :=
    Order.sortOn_of_sorted _ (libraries_sorted sorted)
  have parts := Snapshot.mk.inj canonical
  rw [Snapshot.canonical, libraries, Snapshot.mk.injEq]
  exact ⟨rfl, parts.2.1, rfl, parts.2.2.2.1, parts.2.2.2.2⟩

theorem libraries_told_distinct {projects : List ProjectNode}
    (distinct : projects.Pairwise fun left right => left.name ≠ right.name) :
    (projects.filterMap LibraryNode.ofNode?).Pairwise fun left right => left.name ≠ right.name := by
  rw [libraries_eq, List.pairwise_map]
  exact distinct.filter _

theorem Unambiguous.told (unambiguous : snapshot.Unambiguous) : snapshot.told.Unambiguous :=
  ⟨unambiguous.projects, libraries_told_distinct unambiguous.projects, unambiguous.components⟩

end Snapshot

/-- The rows of a version tell of the snapshot: as they stand, and in any other order. -/
structure Store.Tells (store : Store) (version : Version) (snapshot : Snapshot) : Prop where
  inOrder : Snapshot.ofRows? version.row (rowsOf version.id store.projectRows)
    (rowsOf version.id store.componentRows) (rowsOf version.id store.edgeRows) = some snapshot.told
  anyOrder : ∀ projects components edges, store.Listing version.id projects components edges →
    ∃ read, Snapshot.ofRows? version.row projects components edges = some read ∧
      read.workspaceConfigPath = snapshot.workspaceConfigPath ∧
      read.projects.Perm snapshot.projects ∧ read.components.Perm snapshot.components ∧
      read.edges = snapshot.edges ∧ (snapshot.Unambiguous → read = snapshot.told)

namespace Store.Holds

variable {store : Store} {version : Version} {run : Run} {snapshot : Snapshot}

def found (version : Version) (projects components edges : List Row) : Snapshot :=
  let nodes := projects.filterMap Snapshot.ProjectNode.ofRow?
  { workspaceConfigPath := version.configPath
    projects := nodes
    libraries := nodes.filterMap Snapshot.LibraryNode.ofNode?
    components := components.filterMap Snapshot.ComponentNode.ofRow?
    edges := edges.filterMap Snapshot.Edge.ofRow? }

theorem ofRows?_eq (holds : store.Holds version run snapshot) {projects components edges : List Row}
    (listing : store.Listing version.id projects components edges) :
    Snapshot.ofRows? version.row projects components edges =
      some (found version projects components edges).canonical := by
  have projectsRead := mapM_of_perm (Snapshot.ProjectNode.ofRow?_row version.id)
    (holds.projects ▸ listing.projects)
  have componentsRead := mapM_of_perm (Snapshot.ComponentNode.ofRow?_row version.id)
    (holds.components ▸ listing.components)
  have edgesRead := mapM_of_perm (Snapshot.Edge.ofRow?_row version.id)
    (holds.edges ▸ listing.edges)
  rw [Snapshot.ofRows?, projectsRead, componentsRead, edgesRead]
  rfl

theorem rearranged (holds : store.Holds version run snapshot)
    {projects components edges : List Row}
    (listing : store.Listing version.id projects components edges) :
    snapshot.told.Rearranged (found version projects components edges) := by
  have nodes := filterMap_perm (Snapshot.ProjectNode.ofRow?_row version.id)
    (holds.projects ▸ listing.projects)
  apply Snapshot.Rearranged.of_perm
  · exact Cell.text.inj holds.configPath.symm
  · exact nodes
  · exact nodes.filterMap _
  · exact filterMap_perm (Snapshot.ComponentNode.ofRow?_row version.id)
      (holds.components ▸ listing.components)
  · exact filterMap_perm (Snapshot.Edge.ofRow?_row version.id) (holds.edges ▸ listing.edges)

theorem tells (holds : store.Holds version run snapshot)
    (canonical : snapshot.canonical = snapshot) : store.Tells version snapshot where
  inOrder := by
    have same : found version (rowsOf version.id store.projectRows)
        (rowsOf version.id store.componentRows) (rowsOf version.id store.edgeRows) =
        snapshot.told := by
      rw [found, holds.projects, holds.components, holds.edges,
        filterMap_rows (Snapshot.ProjectNode.ofRow?_row version.id),
        filterMap_rows (Snapshot.ComponentNode.ofRow?_row version.id),
        filterMap_rows (Snapshot.Edge.ofRow?_row version.id),
        Cell.text.inj holds.configPath]
      rfl
    rw [holds.ofRows?_eq ⟨.refl _, .refl _, .refl _⟩, same, Snapshot.canonical_told canonical]
  anyOrder := by
    intro projects components edges listing
    have rearranged := holds.rearranged listing
    have told := Snapshot.canonical_told canonical
    refine ⟨_, holds.ofRows?_eq listing, rearranged.configPath.symm, ?_, ?_, ?_, ?_⟩
    · have nodes := rearranged.projects_canonical_perm
      rw [told] at nodes
      exact nodes.symm
    · have nodes := rearranged.components_canonical_perm
      rw [told] at nodes
      exact nodes.symm
    · have same := Snapshot.canonicalEdges_of_reordered rearranged.edges
      exact same.symm.trans (congrArg Snapshot.edges told)
    · intro unambiguous
      rw [← rearranged.canonical_eq unambiguous.told, told]

end Store.Holds

/-! ## Commits -/

structure Worker.Made (worker : Worker) (receipt : Receipt) (version : Version) : Prop where
  answered : worker.stage = .answered (.ok receipt)
  isNew : receipt.deduplicated = false
  tells : receipt.Tells version
  shows : version.Shows worker.submission.snapshot

namespace Move

variable {worker : Worker} {seen : Option Head} {store left : Store} {stage : Stage}

theorem version_stays (move : Move worker seen store stage left) {version : Version}
    (member : version ∈ store.versions) : version ∈ left.versions := by
  cases move with
  | committed => exact List.mem_append_left _ member
  | begun | begunAgain | replayed | toldToWait | keyLost | refused | committedBefore | numberLost
  | commitFailed | failureRecorded | failureDropped | rested => exact member

theorem makes (move : Move worker seen store stage left)
    (own : ∀ {id attempt}, worker.stage.attempt? = some (id, attempt) →
      ∃ started, store.run? id = some (Acquisition.row id attempt started worker.submission)) :
    (∃ version receipt, left.versions = store.versions ++ [version] ∧
      { worker with stage }.Made receipt version) ∨
    left.versions = store.versions ∧ ∀ receipt, stage = .answered (.ok receipt) →
      receipt.deduplicated = false → worker.stage = stage := by
  cases move with
  | committed now run attempt fewer number committing =>
      exact .inl ⟨_, _, rfl, rfl, rfl, ⟨rfl, rfl⟩, ⟨rfl, rfl, rfl, rfl, rfl⟩⟩
  | committedBefore run linkage attempt fewer committing found succeeded =>
      -- The run that the worker has acquired is still in progress.
      rcases own (by rw [committing, Stage.attempt?]) with ⟨started, row⟩
      rw [← Option.some.inj (row.symm.trans found)] at succeeded
      cases succeeded
  | replayed | toldToWait =>
      apply Or.inr
      constructor
      · rfl
      · intro receipt answered isNew
        cases answered
        cases isNew
  | rested => exact .inr ⟨rfl, fun _ _ _ => rfl⟩
  | begun | begunAgain | keyLost | refused | numberLost | commitFailed | failureRecorded
  | failureDropped =>
      apply Or.inr
      constructor
      · rfl
      · intro receipt answered
        cases answered

end Move

namespace System

/-- The versions are those that somebody was told of, and whoever was told of one has made it. -/
structure Filed (system : System) : Prop where
  made : ∀ version ∈ system.store.versions, ∃ number worker receipt,
    system.workers number = some worker ∧ worker.Made receipt version
  told : ∀ number worker receipt, system.workers number = some worker →
    worker.stage = .answered (.ok receipt) → receipt.deduplicated = false →
    ∃ version ∈ system.store.versions, worker.Made receipt version

end System

theorem Stage.answered_of_cutOff {stage : Stage} {answer : Except StoreError Receipt}
    (answered : stage.cutOff = .answered answer) : stage = .answered answer := by
  cases stage with
  | answered => exact answered
  | _ => cases answered

namespace Step

variable {system next : System} {number other : Nat} {worker : Worker}

theorem made_stays (step : Step system other next) (found : system.workers number = some worker)
    {receipt : Receipt} {version : Version} (made : worker.Made receipt version) :
    ∃ worker, next.workers number = some worker ∧ worker.Made receipt version := by
  rcases step.worker_stays found with ⟨stage, stays, kept⟩
  exact ⟨_, stays, kept _ made.answered, made.isNew, made.tells, made.shows⟩

/-- Whoever has an answer had it before, or has just made the move that led to it. -/
theorem answered_before (step : Step system number next)
    (found : next.workers other = some worker) {answer : Except StoreError Receipt}
    (answered : worker.stage = .answered answer) :
    system.workers other = some worker ∨ ∃ (was : Worker) (stage : Stage) (seen : Option Head),
      other = number ∧ system.workers number = some was ∧ worker = { was with stage } ∧
      Move was seen system.store stage next.store := by
  cases step with
  | nothing => exact .inl found
  | arrived limits submission free =>
      rcases System.place_eq_some found with ⟨-, rfl⟩ | before
      · cases answered
      · exact .inl before
  | cutOff was wasFound =>
      rcases System.place_eq_some found with ⟨rfl, rfl⟩ | before
      · have same : was.stage.cutOff = was.stage := by
          rw [Stage.answered_of_cutOff answered, Stage.cutOff]
        rw [same]
        exact .inl wasFound
      · exact .inl before
  | moved was earlier stage store wasFound member move =>
      rcases System.place_eq_some found with ⟨same, rfl⟩ | before
      · exact .inr ⟨was, stage, _, same, wasFound, rfl, move⟩
      · exact .inl before

theorem version_stays (step : Step system number next) {version : Version}
    (member : version ∈ system.store.versions) : version ∈ next.store.versions := by
  cases step with
  | nothing | arrived | cutOff => exact member
  | moved was earlier stage store found _ move => exact move.version_stays member

end Step

namespace System

theorem Filed.step {system next : System} {number : Nat} (filed : system.Filed)
    (owned : system.Owned) (step : Step system number next) : next.Filed where
  made := by
    have before : ∀ version ∈ system.store.versions, ∃ number worker receipt,
        next.workers number = some worker ∧ worker.Made receipt version := by
      intro version member
      rcases filed.made version member with ⟨other, worker, receipt, found, made⟩
      rcases step.made_stays found made with ⟨worker, stays, made⟩
      exact ⟨other, worker, receipt, stays, made⟩
    intro version member
    cases step with
    | nothing | arrived | cutOff => exact before version member
    | moved worker earlier stage store found _ move =>
        rcases move.makes (owned.rows found) with ⟨new, receipt, versions, made⟩ | ⟨same, -⟩
        · rw [versions] at member
          rcases List.mem_append.mp member with member | member
          · exact before version member
          · rw [List.mem_singleton.mp member]
            exact ⟨number, _, receipt, by simp [place_workers], made⟩
        · rw [same] at member
          exact before version member
  told := by
    intro other worker receipt found answered isNew
    rcases step.answered_before found answered with
      before | ⟨was, stage, seen, rfl, wasFound, rfl, move⟩
    · rcases filed.told other worker receipt before answered isNew with ⟨version, member, made⟩
      exact ⟨version, step.version_stays member, made⟩
    · rcases move.makes (owned.rows wasFound) with ⟨version, again, versions, made⟩ | ⟨same, rests⟩
      · have equal : again = receipt := by
          have answers := made.answered.symm.trans answered
          cases answers
          rfl
        subst equal
        exact ⟨version, versions ▸ List.mem_append_right _ (List.mem_singleton.mpr rfl), made⟩
      · have stays := rests receipt answered isNew
        rcases filed.told other was receipt wasFound (stays.trans answered) isNew with
          ⟨version, member, made⟩
        exact ⟨version, same ▸ member, answered, isNew, made.tells, made.shows⟩

theorem filed_after (events : List Event) : (after events).Filed := by
  apply (after_induction (fun system => system.Owned ∧ system.Filed) _ _ events).2
  · intro system number next sound holds step
    exact ⟨holds.1.step sound step, holds.2.step holds.1 step⟩
  · constructor
    · exact .initial
    · constructor
      · exact nofun
      · intro number worker receipt found
        cases found

/-- The tables hold what was submitted as the version, and it can be read from them. If it was found
by a scan, all of it can: from the rows as they stand, and if the workspace lies in a plain tree,
from the rows in any order. -/
structure Keeps (system : System) (version : Version) (run : Run) (submitted : Snapshot) :
    Prop where
  holds : system.store.Holds version run submitted.canonical
  tells : system.store.Tells version submitted.canonical
  scanned : ∀ tree root, Scan.run tree root = .ok submitted →
    Snapshot.ofRows? version.row (rowsOf version.id system.store.projectRows)
      (rowsOf version.id system.store.componentRows) (rowsOf version.id system.store.edgeRows) =
      some submitted
  scannedPlain : ∀ (tree : FileTree) (directory path : String), tree.Plain →
    directory.toList.head? = some '/' →
    Scan.run tree (Path.absolute directory path) = .ok submitted →
    ∀ projects components edges, system.store.Listing version.id projects components edges →
      Snapshot.ofRows? version.row projects components edges = some submitted

theorem told_of_run {tree : FileTree} {root : String} {snapshot : Snapshot}
    (scanned : Scan.run tree root = .ok snapshot) : snapshot.told = snapshot := by
  rcases Scan.made_of_run scanned with ⟨registry, survey, made, rfl⟩
  rfl

theorem keeps {system : System} {version : Version} {run : Run} {submitted : Snapshot}
    (holds : system.store.Holds version run submitted.canonical) :
    system.Keeps version run submitted where
  holds := holds
  tells := holds.tells submitted.canonical_canonical
  scanned := by
    intro tree root scanned
    have read := (holds.tells submitted.canonical_canonical).inOrder
    rw [Scan.canonical_of_run scanned, told_of_run scanned] at read
    exact read
  scannedPlain := by
    intro tree directory path plain absolute scanned projects components edges listing
    rcases (holds.tells submitted.canonical_canonical).anyOrder projects components edges listing
      with ⟨read, isRead, -, -, -, -, exact⟩
    rw [Scan.canonical_of_run scanned, told_of_run scanned] at exact
    rw [isRead, exact (Scan.unambiguous_of_run plain absolute scanned)]

/-- Every version is one that somebody was told of. Whoever was told of one has stored what was
submitted, and that is kept, in the same rows, whatever happens later. -/
theorem graph_kept (events : List Event) :
    (∀ version ∈ (after events).store.versions, ∃ number worker receipt,
      (after events).workers number = some worker ∧ worker.Made receipt version) ∧
    ∀ number worker receipt limits request, (after events).workers number = some worker →
      worker.stage = .answered (.ok receipt) → receipt.deduplicated = false →
      Submission.prepare limits request = .ok worker.submission →
      ∃ version run, receipt.Tells version ∧ run.id = receipt.run ∧
        ∀ later, ((after events).run later).Keeps version run request.snapshot := by
  constructor
  · exact (filed_after events).made
  · intro number worker receipt limits request found answered isNew prepared
    rcases (filed_after events).told number worker receipt found answered isNew with
      ⟨version, member, made⟩
    have regular := regular_after events
    rcases regular.linked.origins version member with ⟨run, runMember, origin⟩
    have succeeded := (regular.linked.succeeded_iff runMember).mpr ⟨version, member, origin.symm⟩
    rcases regular.linked.succeeded run runMember succeeded with ⟨same, only, names⟩
    have isSame : version = same := by
      have inside : version ∈ (after events).store.madeBy run.id :=
        List.mem_filter.mpr ⟨member, decide_eq_true origin.symm⟩
      rw [only] at inside
      exact List.mem_singleton.mp inside
    subst isSame
    have shows := made.shows
    rw [(Submission.prepared_of_prepare prepared).snapshot] at shows
    refine ⟨version, run, made.tells, origin.trans made.tells.run.symm, fun later => keeps ?_⟩
    have stays : version ∈ ((after events).run later).store.versions :=
      (run_induction (fun system => version ∈ system.store.versions)
        (fun _ member step => step.version_stays member) regular.sound member later).2
    have still : ((after events).run later).store.Regular := by
      rw [run_after]
      exact regular_after _
    exact shows.holds still stays (succeeded_run regular.sound runMember succeeded later) names

/-- Whoever submits something new and is then let alone is told of a version. -/
theorem answered_alone {system : System} (regular : system.store.Regular) {number : Nat}
    {worker : Worker} (found : system.workers number = some worker)
    (stage : worker.stage = .acquiring) (loopless : worker.submission.snapshot.Loopless)
    (fresh : system.store.runWithKey? worker.submission.key = none) (now : Instant) :
    ∃ receipt, receipt.deduplicated = false ∧
      (system.run [calmTurn (number, now), calmTurn (number, now)]).workers number =
        some { worker with stage := .answered (.ok receipt) } := by
  let run := Acquisition.row (.issued system.store.issued) 1 now worker.submission
  have sound : (system.store.addRun run).Sound := regular.sound.addRun rfl fresh (Nat.le_refl 1)
  have versions : (system.store.addRun run).versions = system.store.versions := rfl
  have gapless : (system.store.addRun run).Gapless := (regular.gapless.of_eq versions rfl).1
  have stored : (system.store.addRun run).run? run.id = some run := regular.sound.run?_addRun rfl
  let committing : Worker :=
    { worker with stage := .committing run.id run.attempts (worker.limits.attempts - 1) }
  let begun : System :=
    { system.place number committing with
      store := system.store.addRun run, past := system.store :: system.past }
  have placed : begun.workers number = some committing := if_pos rfl
  have committed : begun.step (calmTurn (number, now)) = _ :=
    @step_committing begun number committing sound gapless loopless placed run _ rfl stored rfl rfl
      rfl now
  have acquired : system.step (calmTurn (number, now)) = begun :=
    step_acquiring regular.sound found stage fresh now
  rw [System.run, List.foldl_cons, List.foldl_cons, List.foldl_nil, acquired, committed]
  exact ⟨⟨run.id, false, _, _⟩, rfl, if_pos rfl⟩

def once (limits : Limits) (submission : Submission) : List Event :=
  [.arrival 0 limits submission] ++ [calmTurn (0, ⟨0⟩), calmTurn (0, ⟨0⟩)]

theorem answered_once {limits : Limits} {submission : Submission}
    (loopless : submission.snapshot.Loopless) :
    ∃ receipt, receipt.deduplicated = false ∧ (after (once limits submission)).workers 0 =
      some ⟨limits, submission, .answered (.ok receipt)⟩ := by
  have regular := regular_after [.arrival 0 limits submission]
  have found : (after [.arrival 0 limits submission]).workers 0 =
      some (.start limits submission) := rfl
  have told := answered_alone regular found rfl loopless rfl ⟨0⟩
  rw [run_after] at told
  exact told

theorem graph_kept_pairTree : ∃ submission,
    Submission.prepare .standard Scan.pairRequest = .ok submission ∧
    ∃ version run, ∀ later, ((after (once .standard submission)).run later).Keeps version run
      Scan.pairSnapshot := by
  have prepared : ∃ submission, Submission.prepare .standard Scan.pairRequest = .ok submission :=
    ⟨_, rfl⟩
  rcases prepared with ⟨submission, prepared⟩
  rcases @answered_once .standard _ (Submission.loopless_of_prepare prepared) with
    ⟨receipt, isNew, answered⟩
  rcases (graph_kept (once .standard submission)).2 0 _ receipt _ _ answered rfl isNew prepared with
    ⟨version, run, -, -, keeps⟩
  exact ⟨submission, prepared, version, run, keeps⟩

end System

end WorkspaceGraph
