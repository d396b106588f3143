import WorkspaceGraph.Proofs.Interleaving.Ownership
import WorkspaceGraph.Proofs.Scan.Views
import WorkspaceGraph.Proofs.Snapshot.Content
import WorkspaceGraph.Proofs.Submission.Preparation
/-!
Scans and submissions agree on the canonical form. A snapshot that was scanned is in it already, so
it is fingerprinted and stored as it is, and no two scans that differ say the same.
-/

namespace WorkspaceGraph

structure Version.Shows (version : Version) (snapshot : Snapshot) : Prop where
  configPath : version.configPath = snapshot.workspaceConfigPath
  counts : version.counts = .ofSummary snapshot.summary
  projects : version.projects = snapshot.projects
  components : version.components = snapshot.components
  edges : version.edges = snapshot.edges

/-- The submission brings the snapshot as it is: it is what the fingerprint is taken of, and what is
stored whenever the submission is committed, whatever others do meanwhile. -/
structure Submission.Brings (submission : Submission) (snapshot : Snapshot) : Prop where
  unaltered : submission.snapshot = snapshot
  payloadHash : submission.payloadHash = Digest.ofPayload submission.workspaceId
    submission.scanner.name submission.scanner.version snapshot.toJson
  stored : ∀ (events : List Event) (number : Nat) (worker : Worker) (run : RowId)
    (attempt left : Nat) (circumstances : Circumstances) (receipt : Receipt),
    (System.after events).workers number = some worker → worker.submission = submission →
    worker.stage = .committing run attempt left →
    let next := (System.after events).step (.turn number circumstances)
    next.workers number = some { worker with stage := .answered (.ok receipt) } →
    ∃ version, next.store.versions = (System.after events).store.versions ++ [version] ∧
      receipt = ⟨run, false, some ⟨version.id, version.number⟩, attempt⟩ ∧
      version.Shows snapshot

namespace Move

variable {worker : Worker} {seen : Option Head} {store changed : Store}

theorem shows {receipt : Receipt} {run : RowId} {attempt left : Nat} {started : Instant}
    (move : Move worker seen store (.answered (.ok receipt)) changed)
    (stage : worker.stage = .committing run attempt left)
    (row : store.run? run = some (Acquisition.row run attempt started worker.submission)) :
    ∃ version, changed.versions = store.versions ++ [version] ∧
      receipt = ⟨run, false, some ⟨version.id, version.number⟩, attempt⟩ ∧
      version.Shows worker.submission.snapshot := by
  generalize answered : Stage.answered (.ok receipt) = after at move
  cases move with
  | committed now found tried fewer number committing stored =>
      cases answered
      rw [stage] at committing
      cases committing
      have same := Option.some.inj (row.symm.trans stored)
      have attempts : found.attempts = attempt := congrArg Run.attempts same.symm
      exact ⟨_, rfl, by rw [attempts]; rfl, ⟨rfl, rfl, rfl, rfl, rfl⟩⟩
  | committedBefore found linkage tried fewer committing stored succeeded =>
      -- The run is in progress, as the worker has acquired it.
      rw [stage] at committing
      cases committing
      have same := Option.some.inj (row.symm.trans stored)
      rw [← same] at succeeded
      cases succeeded
  | replayed found linkage acquires | toldToWait found acquires =>
      rw [Worker.Acquires, stage] at acquires
      rcases acquires with acquiring | reacquiring
      · cases acquiring
      · cases reacquiring
  | rested idle =>
      rw [stage] at idle
      cases idle
  | begun | begunAgain | keyLost | refused | numberLost | commitFailed | failureRecorded
  | failureDropped => cases answered

end Move

theorem System.stored_of_answered {events : List Event} {number : Nat} {worker : Worker}
    {run : RowId} {attempt left : Nat} {circumstances : Circumstances} {receipt : Receipt}
    (found : (after events).workers number = some worker)
    (stage : worker.stage = .committing run attempt left)
    (answered : ((after events).step (.turn number circumstances)).workers number =
      some { worker with stage := .answered (.ok receipt) }) :
    ∃ version, ((after events).step (.turn number circumstances)).store.versions =
        (after events).store.versions ++ [version] ∧
      receipt = ⟨run, false, some ⟨version.id, version.number⟩, attempt⟩ ∧
      version.Shows worker.submission.snapshot := by
  have sound := sound_after events
  have holds : worker.stage.attempt? = some (run, attempt) := by
    rw [stage]
    rfl
  rcases (owned_after events).rows found holds with ⟨started, row⟩
  have step := step_step sound (.turn number circumstances)
  rw [Event.number] at step
  generalize (after events).step (.turn number circumstances) = next at step answered ⊢
  cases step with
  | nothing =>
      rw [found] at answered
      have same := congrArg Worker.stage (Option.some.inj answered)
      rw [stage] at same
      cases same
  | arrived limits submission free =>
      rw [found] at free
      cases free
  | cutOff other otherFound =>
      rw [found] at otherFound
      cases otherFound
      simp [place_workers, stage, Stage.cutOff] at answered
  | moved other earlier after store otherFound member move =>
      rw [found] at otherFound
      cases otherFound
      have same : after = .answered (.ok receipt) := by
        simpa [place_workers] using answered
      subst same
      exact move.shows stage row

theorem Snapshot.Agrees.unambiguous {registry : Registry} {snapshot : Snapshot}
    (agrees : snapshot.Agrees registry) : snapshot.Unambiguous where
  projects := agrees.projects.imp Std.ne_of_lt
  libraries := by
    rw [agrees.libraries, List.pairwise_map]
    exact (agrees.projects.filter _).imp Std.ne_of_lt
  components := by
    refine agrees.components.imp fun below same => ?_
    simp only [ComponentNode.key, List.cons.injEq] at same
    rw [ComponentNode.place, ComponentNode.place, same.1, same.2.1] at below
    exact List.lt_irrefl _ below

namespace Scan

theorem canonical_of_run {tree : FileTree} {root : String} {snapshot : Snapshot}
    (scanned : run tree root = .ok snapshot) : snapshot.canonical = snapshot := by
  rcases made_of_run scanned with ⟨registry, survey, made, rfl⟩
  exact Snapshot.canonical_assemble survey.config survey.projects _ _

theorem unambiguous_of_run {tree : FileTree} {directory path : String} {snapshot : Snapshot}
    (plain : tree.Plain) (absolute : directory.toList.head? = some '/')
    (scanned : run tree (Path.absolute directory path) = .ok snapshot) :
    snapshot.Unambiguous := by
  rcases made_of_run scanned with ⟨registry, survey, made, rfl⟩
  have ⟨_, rooted⟩ := Path.absolute_rooted path absolute
  exact (agrees_of_exact made (exact_of_made made plain rooted)).unambiguous

theorem brings_of_prepare {limits : Limits} {request : Request} {submission : Submission}
    (canonical : request.snapshot.canonical = request.snapshot)
    (prepared : Submission.prepare limits request = .ok submission) :
    submission.Brings request.snapshot := by
  have parts := Submission.prepared_of_prepare prepared
  have same : submission.snapshot = request.snapshot := parts.snapshot.trans canonical
  constructor
  · exact same
  · rw [parts.payloadHash, Submission.fingerprint, same]
  · intro events number worker run attempt left circumstances receipt found isOf stage next answered
    rcases System.stored_of_answered found stage answered with ⟨version, stored, linked, shows⟩
    rw [isOf, same] at shows
    exact ⟨version, stored, linked, shows⟩

/-- The canonical form of a canonical form is that form. The snapshot of a scan is in canonical
form, and whoever submits it brings it as it is. -/
theorem run_canonical :
    (∀ snapshot : Snapshot, snapshot.canonical.canonical = snapshot.canonical) ∧
    ∀ (tree : FileTree) (root : String) (snapshot : Snapshot), run tree root = .ok snapshot →
      snapshot.canonical = snapshot ∧
      ∀ (limits : Limits) (request : Request) (submission : Submission),
        request.snapshot = snapshot → Submission.prepare limits request = .ok submission →
        submission.Brings snapshot := by
  constructor
  · exact Snapshot.canonical_canonical
  · intro tree root snapshot scanned
    have canonical := canonical_of_run scanned
    constructor
    · exact canonical
    · intro limits request submission isOf prepared
      subst isOf
      exact brings_of_prepare canonical prepared

def pairRequest : Request :=
  ⟨" key ", " team/repo ", .manual, ⟨"scanner", some " "⟩, none, pairSnapshot⟩

theorem run_canonical_pairTree : pairSnapshot.canonical = pairSnapshot ∧
    ∃ submission, Submission.prepare .standard pairRequest = .ok submission ∧
      submission.Brings pairSnapshot := by
  have scanned := run_canonical.2 pairTree _ pairSnapshot run_pairTree
  have prepared : ∃ submission, Submission.prepare .standard pairRequest = .ok submission :=
    ⟨_, rfl⟩
  rcases prepared with ⟨submission, prepared⟩
  exact ⟨scanned.1, submission, prepared,
    scanned.2 .standard pairRequest submission rfl prepared⟩

end Scan

end WorkspaceGraph
