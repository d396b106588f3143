import Mathlib
import WorkspaceGraph.Proofs.Ingestion.Ledger
import WorkspaceGraph.Proofs.Interleaving.Regular
/-!
The latest run of a workspace is the one that started last. If submissions come one after another
and the clock does not go back, it is the one that made the version its head tells of.
-/

namespace WorkspaceGraph

open Transaction

theorem Instant.microseconds_injective : Function.Injective Instant.microseconds := by
  rintro ⟨first⟩ ⟨second⟩ same
  cases same
  rfl

instance : LinearOrder Instant := .lift' Instant.microseconds Instant.microseconds_injective

namespace Store

/-! ## The latest of some runs -/

def orLeast (number : Option Int) : WithBot Int := number

theorem numberAfter_iff {number other : Option Int} :
    numberAfter number other = true ↔ orLeast other < orLeast number := by
  cases number with
  | none => exact iff_of_false Bool.false_ne_true not_lt_bot
  | some number =>
      cases other with
      | none => exact iff_of_true rfl (WithBot.bot_lt_coe number)
      | some other => exact decide_eq_true_iff.trans WithBot.coe_lt_coe.symm

def rank (run : Run) : Instant ×ₗ WithBot Int := toLex (run.startedAt, orLeast run.versionNumber)

theorem isLater_iff {run other : Run} : isLater run other = true ↔ rank other < rank run := by
  have earlier : other.startedAt.microseconds < run.startedAt.microseconds ↔
      other.startedAt < run.startedAt := .rfl
  rw [isLater, rank, rank, Prod.Lex.toLex_lt_toLex, Bool.or_eq_true, Bool.and_eq_true,
    decide_eq_true_iff, decide_eq_true_iff, numberAfter_iff, earlier, @eq_comm _ run.startedAt]

theorem latestOf_eq_none {runs : List Run} : latestOf runs = none ↔ runs = [] := by
  cases runs with
  | nil => simp [latestOf]
  | cons run rest =>
      rw [latestOf]
      cases latestOf rest with
      | none => simp
      | some other =>
          dsimp only
          split <;> simp

theorem rank_le_of_latestOf {runs : List Run} {run : Run} (latest : latestOf runs = some run) :
    ∀ other ∈ runs, rank other ≤ rank run := by
  induction runs generalizing run with
  | nil => cases latest
  | cons next rest induction =>
      rw [latestOf] at latest
      cases found : latestOf rest with
      | none =>
          rw [found] at latest
          cases latest
          simp [latestOf_eq_none.mp found]
      | some last =>
          rw [found] at latest
          dsimp only at latest
          have highest := induction found
          split at latest
          · cases latest
            have later := isLater_iff.mp ‹_›
            exact List.forall_mem_cons.mpr
              ⟨le_refl _, fun other member => (highest other member).trans later.le⟩
          · cases latest
            have notLater : ¬ rank run < rank next := fun later =>
              absurd (isLater_iff.mpr later) ‹_›
            exact List.forall_mem_cons.mpr ⟨not_lt.mp notLater, highest⟩

/-! ## Times and versions -/

/-- The runs of a workspace have started in the order of the versions they made, and all runs
before the moments that are to come. The clock does not go back. -/
structure Dated (store : Store) (coming : List Instant) : Prop where
  ordered : coming.Pairwise (· ≤ ·)
  started : ∀ run ∈ store.runs, ∀ moment ∈ coming, run.startedAt ≤ moment
  ascending : ∀ run ∈ store.runs, ∀ other ∈ store.runs, run.workspaceId = other.workspaceId →
    ∀ number later, run.versionNumber = some number → other.versionNumber = some later →
      number < later → run.startedAt ≤ other.startedAt

def Leads (store : Store) (id : RowId) : Prop :=
  ∀ run, store.run? id = some run → ∀ other ∈ store.runs, other.startedAt ≤ run.startedAt

variable {store left : Store} {now : Instant} {coming : List Instant}

theorem Gapless.number_le (gapless : store.Gapless) {workspaceId : String} {version : Version}
    (member : version ∈ store.history workspaceId) :
    version.number ≤ (store.history workspaceId).length := by
  have listed : version.number ∈ (store.history workspaceId).map Version.number :=
    List.mem_map_of_mem member
  rw [gapless.numbers, List.mem_range'_1] at listed
  omega

theorem Linked.exists_version (linked : store.Linked) {run : Run} (member : run ∈ store.runs)
    {number : Int} (numbered : run.versionNumber = some number) :
    run.status = .succeeded ∧ ∃ version ∈ store.history run.workspaceId,
      version.runId = run.id ∧ run.Names version ∧ number = version.number := by
  by_cases succeeded : run.status = .succeeded
  · rcases linked.succeeded run member succeeded with ⟨version, only, names⟩
    have made : version ∈ store.madeBy run.id := by simp [only]
    have parts := List.mem_filter.mp made
    have isNumber := names.number
    rw [numbered] at isNumber
    refine ⟨succeeded, version, List.mem_filter.mpr ⟨parts.1, ?_⟩, by simpa using parts.2, names,
      Option.some.inj isNumber⟩
    simp [names.workspaceId]
  · have none := (linked.unfinished run member succeeded).2.2
    rw [numbered] at none
    cases none

namespace Dated

theorem empty (ordered : coming.Pairwise (· ≤ ·)) : Store.empty.Dated coming where
  ordered := ordered
  started := by simp [Store.empty]
  ascending := by simp [Store.empty]

theorem of_subset (dated : store.Dated coming) {others : List Instant}
    (ordered : others.Pairwise (· ≤ ·)) (inside : others ⊆ coming) : store.Dated others where
  ordered := ordered
  started := fun run member moment soon => dated.started run member moment (inside soon)
  ascending := dated.ascending

theorem tail (dated : store.Dated (now :: coming)) : store.Dated coming :=
  dated.of_subset dated.ordered.tail (List.subset_cons_self now coming)

theorem unnumbered (dated : store.Dated (now :: coming))
    (kept : ∀ run ∈ left.runs,
      run ∈ store.runs ∨ run.startedAt ≤ now ∧ run.versionNumber = none) :
    left.Dated coming where
  ordered := dated.tail.ordered
  started := by
    intro run member moment soon
    rcases kept run member with member | ⟨started, -⟩
    · exact dated.tail.started run member moment soon
    · exact started.trans ((List.pairwise_cons.mp dated.ordered).1 moment soon)
  ascending := by
    intro run member other otherMember same number later isNumber isLater less
    have was : ∀ run ∈ left.runs, ∀ number, run.versionNumber = some number →
        run ∈ store.runs := by
      intro run member number isNumber
      refine (kept run member).resolve_right fun fresh => ?_
      rw [isNumber] at fresh
      cases fresh.2
    exact dated.ascending run (was run member number isNumber) other
      (was other otherMember later isLater) same number later isNumber isLater less

theorem commitRun (dated : store.Dated coming) (linked : store.Linked) (gapless : store.Gapless)
    {run : Run} (found : store.run? run.id = some run) (leads : store.Leads run.id)
    (now : Instant) {number : Nat} (next : number = (store.history run.workspaceId).length + 1)
    (snapshot : Snapshot) : (store.commitRun now run number snapshot).Dated coming where
  ordered := dated.ordered
  started := by
    intro other member moment soon
    rcases (mem_commitRun found).mp member with rfl | ⟨member, -⟩
    · exact dated.started run (mem_of_run? found).1 moment soon
    · exact dated.started other member moment soon
  ascending := by
    intro first firstMember second secondMember same low high isLow isHigh less
    rcases (mem_commitRun found).mp secondMember with rfl | ⟨secondMember, -⟩
    · rcases (mem_commitRun found).mp firstMember with rfl | ⟨firstMember, -⟩
      · exact le_refl _
      · exact leads run found first firstMember
    · rcases (mem_commitRun found).mp firstMember with rfl | ⟨firstMember, -⟩
      · -- No version has a higher number than the new one.
        rcases linked.exists_version secondMember isHigh with ⟨-, version, inside, -, -, isOf⟩
        have most := gapless.number_le inside
        have here : second.workspaceId = run.workspaceId := same.symm
        have isNew : (number : Int) = low := Option.some.inj isLow
        rw [here] at most
        omega
      · exact dated.ascending first firstMember second secondMember same low high isLow isHigh less

end Dated

structure Paced (store : Store) (stage : Stage) (coming : List Instant) : Prop where
  dated : store.Dated coming
  leads : ∀ id attempt, stage.attempt? = some (id, attempt) → store.Leads id

theorem Paced.idle (dated : store.Dated coming) {stage : Stage} (idle : stage.attempt? = none) :
    store.Paced stage coming where
  dated := dated
  leads := by simp [idle]

end Store

open Store

variable {worker : Worker} {store left : Store} {now : Instant} {coming : List Instant}

theorem Worker.paced_acquiring (sound : store.Sound) (dated : store.Dated (now :: coming))
    (faults : Faults) (isFirst : Bool) :
    let result := (Acquisition.make now worker.submission).execute store faults
    result.2.1.Paced (worker.afterAcquisition isFirst result.1) coming := by
  have fresh : ∀ (id : RowId) (attempts : Nat) (changed : Store),
      changed.run? id = some (Acquisition.row id attempts now worker.submission) →
      (∀ run ∈ changed.runs,
        run ∈ store.runs ∨ run = Acquisition.row id attempts now worker.submission) →
      changed.Paced (worker.resume (.acquired id attempts)) coming := by
    intro id attempts changed stored rows
    refine ⟨dated.unnumbered fun run member => (rows run member).imp_right ?_, ?_⟩
    · rintro rfl
      exact ⟨le_refl now, rfl⟩
    · intro other attempt holds run found row member
      cases holds
      rw [stored] at found
      cases found
      rcases rows row member with member | rfl
      · exact dated.started row member now (List.mem_cons_self ..)
      · exact le_refl _
  rcases (Acquisition.make_ensures sound now worker.submission).execute faults with
    ⟨error, left, equal, -⟩ | ⟨acquisition, changed, left, equal, outcome⟩
  · simp only [equal]
    refine .idle dated.tail ?_
    rcases worker.afterAcquisition_error isFirst error with after | ⟨-, after⟩
    · rw [after]
      rfl
    · rw [after]
      rfl
  · simp only [equal]
    cases outcome with
    | first absent =>
        refine fresh _ _ _ (sound.run?_addRun rfl) fun run member => ?_
        exact (List.mem_append.mp member).imp_right List.mem_singleton.mp
    | again run found same failed =>
        have parts := Store.mem_of_runWithKey? found
        have stored := sound.run?_of_mem parts.1
        let changed := Acquisition.row run.id (run.attempts + 1) now worker.submission
        have found : store.run? changed.id = some run := stored
        refine fresh _ _ _ (sound.run?_putRun stored parts.2.symm (Nat.le_add_left 1 _))
          fun row member => ?_
        exact ((mem_putRun found).mp member).symm.imp_left And.left
    | deduplicated | inFlight => exact .idle dated.tail rfl

theorem Move.paced {earlier : Store} {stage : Stage}
    (move : Move worker (earlier.head? worker.submission.workspaceId) store stage left)
    (busy : ¬ worker.Acquires) (linked : store.Linked) (gapless : store.Gapless)
    (was : earlier.Gapless)
    (grown : ∀ workspaceId, earlier.history workspaceId <+: store.history workspaceId)
    (paced : store.Paced worker.stage (now :: coming)) : left.Paced stage coming := by
  have dated := paced.dated
  cases move with
  | committed now run attempt left number stage found workspace payload processing isNumber free =>
      rw [← workspace] at isNumber
      have next := gapless.number_eq was (grown run.workspaceId) isNumber free
      have leads := paced.leads run.id attempt (by rw [stage, Stage.attempt?])
      exact .idle (dated.tail.commitRun linked gapless found leads now next _) rfl
  | failureRecorded again run attempt error answer stage found unfinished =>
      have member := (Store.mem_of_run? found).1
      refine .idle (dated.unnumbered fun row rowMember => ?_) rfl
      let changed := (Failure.ofError error).row again run
      have stored : store.run? changed.id = some run := found
      rcases (mem_putRun stored).mp rowMember with rfl | ⟨rowMember, -⟩
      · exact .inr ⟨dated.started run member now (List.mem_cons_self ..),
          (linked.unfinished run member unfinished).2.2⟩
      · exact .inl rowMember
  | numberLost run attempt fewer stage | commitFailed run attempt fewer error stage =>
      refine ⟨dated.tail, fun id other holds => paced.leads id other ?_⟩
      rw [stage]
      exact holds
  | committedBefore | failureDropped => exact .idle dated.tail rfl
  | rested => exact ⟨dated.tail, paced.leads⟩
  | begun now acquires | begunAgain now run acquires | replayed run linkage acquires
  | toldToWait run acquires | refused error acquires => exact absurd acquires busy
  | keyLost stage => exact absurd (.inl stage) busy

/-! ## Asking for the latest run -/

namespace Store

theorem Gapless.version?_of_mem (gapless : store.Gapless) {workspaceId : String}
    {version : Version} (member : version ∈ store.history workspaceId) :
    store.version? workspaceId version.number = some version := by
  cases found : store.version? workspaceId version.number with
  | none => exact absurd (List.mem_map_of_mem member) (version?_eq_none.mp found)
  | some other =>
      have isOf := List.find?_some found
      simp only [Bool.and_eq_true, decide_eq_true_eq] at isOf
      have otherMember : other ∈ store.history workspaceId :=
        List.mem_filter.mpr ⟨List.mem_of_find?_eq_some found, by simpa using isOf.1⟩
      have once : ((store.history workspaceId).map Version.number).Nodup := by
        rw [gapless.numbers]
        exact List.nodup_range' ..
      exact congrArg some (List.inj_on_of_nodup_map once otherMember member isOf.2)

theorem Linked.exists_run (linked : store.Linked) {version : Version}
    (member : version ∈ store.versions) :
    ∃ run ∈ store.runs, run.status = .succeeded ∧ run.id = version.runId ∧
      run.Names version := by
  rcases linked.origins version member with ⟨run, runMember, origin⟩
  have succeeded := (linked.succeeded_iff runMember).mpr ⟨version, member, origin.symm⟩
  rcases linked.succeeded run runMember succeeded with ⟨made, only, names⟩
  have inside : version ∈ store.madeBy run.id :=
    List.mem_filter.mpr ⟨member, by simpa using origin.symm⟩
  rw [only, List.mem_singleton] at inside
  exact ⟨run, runMember, succeeded, origin, inside ▸ names⟩

theorem latestSucceeded?_eq_none (linked : store.Linked) {workspaceId : String} :
    store.latestSucceeded? workspaceId = none ↔ store.history workspaceId = [] := by
  rw [latestSucceeded?, latestOf_eq_none, List.filter_eq_nil_iff, history, List.filter_eq_nil_iff]
  constructor
  · intro none version member isOf
    rcases linked.exists_run member with ⟨run, runMember, succeeded, -, names⟩
    refine none run runMember ?_
    simpa [succeeded, names.workspaceId] using isOf
  · intro none run member isOf
    simp only [Bool.and_eq_true, decide_eq_true_eq] at isOf
    rcases linked.succeeded run member isOf.2 with ⟨version, only, names⟩
    have made : version ∈ store.madeBy run.id := by simp [only]
    refine none version (List.mem_filter.mp made).1 ?_
    simpa [names.workspaceId] using isOf.1

structure MadeHead (store : Store) (workspaceId : String) (run : Run) (version : Version) :
    Prop where
  stored : run ∈ store.runs
  succeeded : run.status = .succeeded
  head : store.head? workspaceId = some ⟨workspaceId, version.number⟩
  current : store.version? workspaceId version.number = some version
  made : version.runId = run.id
  names : run.Names version

theorem Dated.madeHead (dated : store.Dated coming) (linked : store.Linked)
    (gapless : store.Gapless) {workspaceId : String} {run : Run}
    (latest : store.latestSucceeded? workspaceId = some run) :
    ∃ version, store.MadeHead workspaceId run version := by
  rcases mem_of_latestSucceeded? latest with ⟨member, rfl, succeeded⟩
  rcases linked.succeeded run member succeeded with ⟨version, only, names⟩
  have made : version ∈ store.madeBy run.id := by simp [only]
  have parts := List.mem_filter.mp made
  have inside : version ∈ store.history run.workspaceId :=
    List.mem_filter.mpr ⟨parts.1, by simp [names.workspaceId]⟩
  have least : 1 ≤ (store.history run.workspaceId).length := List.length_pos_of_mem inside
  -- The run of the last version has started no later, nor has it a higher number.
  have top : (store.history run.workspaceId).length ∈
      (store.history run.workspaceId).map Version.number := by
    rw [gapless.numbers, List.mem_range'_1]
    omega
  rcases List.mem_map.mp top with ⟨last, lastInside, isLast⟩
  have lastParts := List.mem_filter.mp lastInside
  rcases linked.exists_run lastParts.1 with ⟨lastRun, lastMember, lastSucceeded, -, lastNames⟩
  have lastWorkspace : lastRun.workspaceId = run.workspaceId :=
    lastNames.workspaceId.trans (by simpa using lastParts.2)
  have highest : rank lastRun ≤ rank run := by
    refine rank_le_of_latestOf latest lastRun (List.mem_filter.mpr ⟨lastMember, ?_⟩)
    simp [lastWorkspace, lastSucceeded]
  have isNumber : version.number = last.number := by
    apply Decidable.byContradiction
    intro different
    have less : (version.number : Int) < last.number := by
      have most := gapless.number_le inside
      omega
    have before := dated.ascending run member lastRun lastMember lastWorkspace.symm _ _
      names.number lastNames.number less
    rw [rank, rank, Prod.Lex.toLex_le_toLex, names.number, lastNames.number] at highest
    rcases highest with after | ⟨-, atMost⟩
    · exact absurd before (not_le.mpr after)
    · exact absurd (WithBot.coe_le_coe.mp atMost) (not_le.mpr less)
  refine ⟨version, member, succeeded, ?_, gapless.version?_of_mem inside, by simpa using parts.2,
    names⟩
  rw [gapless.head, if_neg (by omega), isNumber, isLast]

/-- Whoever asks for the latest run of a workspace gets the one that made the version its head
tells of, or none as long as there is no version. Records never contradict themselves. -/
structure TellsHead (store : Store) : Prop where
  answered : ∀ limits asked workspaceId log,
    Submission.normalizeWorkspaceId limits asked = .ok workspaceId →
    ∃ answer, (Service.latest limits asked).outcome ⟨store, .none, log⟩ =
        (.ok answer, ⟨store, .none, log⟩) ∧
      (answer = none ↔ store.history workspaceId = []) ∧
      ∀ run linkage, answer = some (run, linkage) →
        ∃ version, store.MadeHead workspaceId run version ∧
          linkage = ⟨version.id, version.number⟩
  consistent : ∀ limits asked faults log error left,
    (Service.latest limits asked).outcome ⟨store, faults, log⟩ = (.error error, left) →
    faults.Raises error ∨ error.isBroken = false

theorem Dated.tellsHead (dated : store.Dated coming) (linked : store.Linked)
    (gapless : store.Gapless) : store.TellsHead where
  answered := by
    intro limits asked workspaceId log normal
    have observed : (Transaction.findLatestSucceeded workspaceId).observe store .none =
        (.ok (store.latestSucceeded? workspaceId), .none) := rfl
    rw [Service.latest, normal]
    dsimp only
    rw [Service.outcome_bind, Service.outcome_inspect, observed]
    rw [← latestSucceeded?_eq_none linked]
    cases latest : store.latestSucceeded? workspaceId with
    | none => exact ⟨none, rfl, by simp, by simp⟩
    | some run =>
        rcases dated.madeHead linked gapless latest with ⟨version, made⟩
        refine ⟨some (run, ⟨version.id, version.number⟩), ?_, by simp, ?_⟩
        · simp only [made.names.linkage?, Service.outcome_pure]
        · rintro _ _ ⟨⟩
          exact ⟨version, made, rfl⟩
  consistent := by
    intro limits asked faults log error left failed
    exact linked.latest_never_misses limits asked faults log failed

end Store

/-! ## One after another -/

/-- A submission that comes in after all turns of those before it, and what it meets with in its
own turns. They may be fewer than it takes to get an answer. -/
structure Visit where
  limits : Limits
  submission : Submission
  turns : List Circumstances

namespace Visit

def moments (visit : Visit) : List Instant := visit.turns.map Circumstances.now

def events (number : Nat) (visit : Visit) : List Event :=
  .arrival number visit.limits visit.submission :: visit.turns.map (Event.turn number)

def inOrder (number : Nat) : List Visit → List Event
  | [] => []
  | visit :: rest => visit.events number ++ inOrder (number + 1) rest

end Visit

structure Call where
  limits : Limits
  now : Instant
  request : Request
  faults : Faults

def Call.serve (world : World) (call : Call) : World :=
  ((Service.ingest call.limits call.now call.request).outcome
    { world with faults := call.faults }).2

namespace System

structure Attended (system : System) (number : Nat) (coming : List Instant) : Prop where
  reachable : ∃ events, system = after events
  dated : system.store.Dated coming
  paced : ∀ worker, system.workers number = some worker → system.store.Paced worker.stage coming

structure Ready (system : System) (number : Nat) (coming : List Instant) : Prop where
  reachable : ∃ events, system = after events
  dated : system.store.Dated coming
  free : ∀ other, number ≤ other → system.workers other = none

variable {system : System} {number : Nat}

theorem Attended.turn {circumstances : Circumstances}
    (attended : system.Attended number (circumstances.now :: coming)) :
    (system.step (.turn number circumstances)).Attended number coming := by
  have reached := reachable_step attended.reachable (.turn number circumstances)
  rcases attended.reachable with ⟨events, isAfter⟩
  have regular : system.store.Regular := isAfter ▸ regular_after events
  have recorded : system.Recorded := isAfter ▸ recorded_after events
  cases found : system.workers number with
  | none =>
      have same : system.step (.turn number circumstances) = system := by simp only [step, found]
      rw [same] at reached ⊢
      refine ⟨reached, attended.dated.tail, fun worker isThere => ?_⟩
      rw [found] at isThere
      cases isThere
  | some worker =>
      rcases system.headBefore_eq circumstances.age worker.submission.workspaceId with
        ⟨earlier, member, seen⟩
      have paced : (worker.turn circumstances (earlier.head? worker.submission.workspaceId)
          system.store).2.Paced (worker.turn circumstances
            (earlier.head? worker.submission.workspaceId) system.store).1 coming := by
        by_cases acquires : worker.Acquires
        · rcases circumstances with ⟨now, faults, age⟩
          rcases acquires with stage | stage
          · simp only [Worker.turn, stage]
            exact Worker.paced_acquiring regular.sound attended.dated faults true
          · simp only [Worker.turn, stage]
            exact Worker.paced_acquiring regular.sound attended.dated faults false
        · have was := recorded.of_mem member
          exact (Worker.move_turn regular.sound worker circumstances _).paced acquires
            regular.linked regular.gapless was.1 was.2 (attended.paced worker found)
      rw [step, found] at reached ⊢
      dsimp only [afterTurn] at reached ⊢
      rw [seen] at reached ⊢
      refine ⟨reached, paced.dated, fun next isThere => ?_⟩
      simp only [place_workers, if_true] at isThere
      cases isThere
      exact paced

theorem Attended.turns {turns : List Circumstances}
    (attended : system.Attended number (turns.map Circumstances.now ++ coming)) :
    (system.run (turns.map (Event.turn number))).Attended number coming := by
  induction turns generalizing system with
  | nil => exact attended
  | cons turn turns induction => exact induction attended.turn

theorem Ready.visit {visit : Visit} (ready : system.Ready number (visit.moments ++ coming)) :
    (system.run (visit.events number)).Ready (number + 1) coming := by
  have free := ready.free number (le_refl number)
  have arrived : system.step (.arrival number visit.limits visit.submission) =
      system.place number (.start visit.limits visit.submission) := by
    simp only [step, free]
  have attended : (system.step (.arrival number visit.limits visit.submission)).Attended number
      (visit.moments ++ coming) := by
    refine ⟨reachable_step ready.reachable _, ?_, fun worker isThere => ?_⟩
    · rw [arrived]
      exact ready.dated
    · rw [arrived] at isThere ⊢
      simp only [place_workers, if_true] at isThere
      cases isThere
      exact .idle ready.dated rfl
  have last : (system.run (visit.events number)).Attended number coming := attended.turns
  refine ⟨last.reachable, last.dated, fun other higher => ?_⟩
  have sound := sound_of_reachable ready.reachable
  refine (workers_run sound _ fun event member => ?_).trans (ready.free other (by omega))
  have isOf : event.number = number := by
    rcases List.mem_cons.mp member with rfl | member
    · rfl
    · rcases List.mem_map.mp member with ⟨turn, -, rfl⟩
      rfl
  omega

theorem Ready.tellsHead (ready : system.Ready number coming) : system.store.TellsHead := by
  have regular := regular_of_reachable ready.reachable
  exact ready.dated.tellsHead regular.linked regular.gapless

theorem Ready.visits {visits : List Visit}
    (ready : system.Ready number (visits.flatMap Visit.moments)) :
    (system.run (Visit.inOrder number visits)).store.TellsHead := by
  induction visits generalizing system number with
  | nil => exact ready.tellsHead
  | cons visit rest induction =>
      have split : system.run (Visit.inOrder number (visit :: rest)) =
          (system.run (visit.events number)).run (Visit.inOrder (number + 1) rest) :=
        List.foldl_append
      rw [split]
      exact induction ready.visit

/-- A request that is in order and ingested in one go is a visit all of whose turns are at that
time. -/
theorem Ready.serve {call : Call} (ready : system.Ready number (call.now :: coming))
    {world : World} (same : world.store = system.store) :
    ∃ next : System, next.Ready (number + 1) coming ∧ (call.serve world).store = next.store := by
  have free := ready.free number (le_refl number)
  rw [Call.serve, Service.ingest, Service.prepare]
  cases prepared : Submission.prepare call.limits call.request with
  | error error =>
      refine ⟨system, ⟨ready.reachable, ready.dated.tail, fun other higher => ?_⟩, same⟩
      exact ready.free other (by omega)
  | ok submission =>
      rcases system.run_turns free call.limits call.now submission call.faults world.log with
        ⟨turns, moments, store, -⟩
      let visit : Visit := ⟨call.limits, submission, turns⟩
      have atNow : ∀ moment ∈ visit.moments, moment = call.now := by
        intro moment member
        rcases List.mem_map.mp member with ⟨turn, turnMember, rfl⟩
        exact moments turn turnMember
      have parts := List.pairwise_cons.mp ready.dated.ordered
      have inside : visit.moments ++ coming ⊆ call.now :: coming := by
        refine List.append_subset.mpr ⟨fun moment member => ?_, List.subset_cons_self _ _⟩
        rw [atNow moment member]
        exact List.mem_cons_self ..
      have ordered : (visit.moments ++ coming).Pairwise (· ≤ ·) := by
        refine List.pairwise_append.mpr ⟨?_, parts.2, fun moment member later soon => ?_⟩
        · refine List.pairwise_of_forall_mem_list fun first firstMember second secondMember => ?_
          rw [atNow first firstMember, atNow second secondMember]
        · rw [atNow moment member]
          exact parts.1 later soon
      have again : system.Ready number (visit.moments ++ coming) :=
        ⟨ready.reachable, ready.dated.of_subset ordered inside, ready.free⟩
      refine ⟨_, again.visit, ?_⟩
      rw [← same] at store
      exact store.symm

theorem Ready.calls {calls : List Call} (ready : system.Ready number (calls.map Call.now))
    {world : World} (same : world.store = system.store) :
    (calls.foldl Call.serve world).store.TellsHead := by
  induction calls generalizing system number world with
  | nil =>
      have tells := ready.tellsHead
      exact same ▸ tells
  | cons call rest induction =>
      rcases ready.serve same with ⟨next, nextReady, left⟩
      rw [List.foldl_cons]
      exact induction nextReady left

theorem Ready.initial (ordered : coming.Pairwise (· ≤ ·)) : initial.Ready 0 coming where
  reachable := ⟨[], rfl⟩
  dated := .empty ordered
  free := fun _ _ => rfl

/-- If submissions come one after another and the clock does not go back, the latest run of a
workspace is the one that made the version its head tells of, whatever goes wrong with them and
wherever they are broken off. In particular this is so if requests are ingested in one go. -/
theorem latest_tells_head :
    (∀ visits : List Visit, (visits.flatMap Visit.moments).Pairwise (· ≤ ·) →
      (after (Visit.inOrder 0 visits)).store.TellsHead) ∧
    ∀ (calls : List Call) (log : List Log.Entry), (calls.map Call.now).Pairwise (· ≤ ·) →
      (calls.foldl Call.serve ⟨.empty, .none, log⟩).store.TellsHead :=
  ⟨fun _ ordered => Ready.visits (.initial ordered),
    fun _ _ ordered => Ready.calls (.initial ordered) rfl⟩

/-- The first attempt fails. Its key is tried again at the time at which another one is
committed. -/
theorem latest_tells_head_retried :
    let failing : Faults := { Faults.none with version := some (.database none) }
    (after (Visit.inOrder 0 [
      ⟨.standard, .bare "key" "payload", [⟨⟨1⟩, .none, 0⟩, ⟨⟨2⟩, failing, 0⟩, ⟨⟨2⟩, .none, 0⟩]⟩,
      ⟨.standard, .bare "other" "payload", [⟨⟨3⟩, .none, 0⟩, ⟨⟨3⟩, .none, 0⟩]⟩,
      ⟨.standard, .bare "key" "payload", [⟨⟨3⟩, .none, 0⟩, ⟨⟨4⟩, .none, 0⟩]⟩])).store.TellsHead ∧
    ([⟨.standard, ⟨1⟩, .bare "key", failing⟩, ⟨.standard, ⟨2⟩, .bare "other", .none⟩,
      ⟨.standard, ⟨2⟩, .bare "key", .none⟩].foldl Call.serve ⟨.empty, .none, []⟩).store.TellsHead :=
  ⟨latest_tells_head.1 _ (by decide), latest_tells_head.2 _ _ (by decide)⟩

end System

end WorkspaceGraph
