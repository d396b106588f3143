import WorkspaceGraph.Proofs.Ingestion.Ledger
import WorkspaceGraph.Proofs.Interleaving.Abreast
/-!
Submissions of different keys, interleaved in any way. As long as nothing goes wrong with them,
they come to what they come to one after another, in the order in which they were committed.
-/

namespace WorkspaceGraph

/-! ## Batches -/

structure Batch where
  limits : Limits
  numbers : List Nat
  request : Nat → Request
  submission : Nat → Submission

namespace Batch

/-- The requests are in order, their keys are different ones and new to the store, and there are
workers for them. -/
structure Fits (batch : Batch) (system : System) : Prop where
  once : batch.numbers.Nodup
  prepared : ∀ number ∈ batch.numbers,
    Submission.prepare batch.limits (batch.request number) = .ok (batch.submission number)
  keys : ∀ number ∈ batch.numbers, ∀ other ∈ batch.numbers,
    (batch.submission number).key = (batch.submission other).key → number = other
  fresh : ∀ number ∈ batch.numbers,
    system.store.runWithKey? (batch.submission number).key = none
  free : ∀ number ∈ batch.numbers, system.workers number = none

def events (batch : Batch) (schedule : List (Nat × Instant)) : List Event :=
  batch.numbers.map (fun number => .arrival number batch.limits (batch.submission number)) ++
    schedule.map System.calmTurn

def ingestEach (batch : Batch) (clock : Nat → Instant) :
    List Nat → World → List (Nat × Except StoreError Receipt) × World
  | [], world => ([], world)
  | number :: rest, world =>
      let (answer, left) :=
        (Service.ingest batch.limits (clock number) (batch.request number)).outcome world
      let (answers, last) := ingestEach batch clock rest left
      ((number, answer) :: answers, last)

end Batch

def System.committers (system : System) : List Event → List Nat
  | [] => []
  | event :: events =>
      let rest := (system.step event).committers events
      if (system.step event).store.versions.length = system.store.versions.length then rest
      else event.number :: rest

namespace Batch

variable {batch : Batch} {system : System} {schedule : List (Nat × Instant)}

theorem ingestEach_cons {clock : Nat → Instant} {number : Nat} (rest : List Nat)
    {world left : World} {answer : Except StoreError Receipt}
    (came : (Service.ingest batch.limits (clock number) (batch.request number)).outcome world =
      (answer, left)) :
    batch.ingestEach clock (number :: rest) world =
      ((number, answer) :: (batch.ingestEach clock rest left).1,
        (batch.ingestEach clock rest left).2) := by
  simp only [ingestEach, came]

/-! ## Where a batch stands -/

def left (schedule : List (Nat × Instant)) (number : Nat) : Nat :=
  (schedule.map Prod.fst).count number

inductive Stands (batch : Batch) (system : System) (number : Nat) : Nat → Prop
  | done : Stands batch system number 0
  | committing (id : RowId) : system.workers number = some ⟨batch.limits, batch.submission number,
        .committing id 1 (batch.limits.attempts - 1)⟩ → Stands batch system number 1
  | acquiring : system.workers number = some (.start batch.limits (batch.submission number)) →
      system.store.runWithKey? (batch.submission number).key = none →
      Stands batch system number 2

def settled (batch : Batch) (schedule : List (Nat × Instant)) (run : Run) : Bool :=
  batch.numbers.all fun number =>
    (batch.submission number).key ≠ run.key || left schedule number ≠ 1

theorem settled_iff {run : Run} : batch.settled schedule run = true ↔
    ∀ number ∈ batch.numbers, (batch.submission number).key = run.key →
      left schedule number ≠ 1 := by
  simp only [settled, List.all_eq_true, Bool.or_eq_true, decide_eq_true_eq]
  constructor
  · intro all number member same
    exact (all number member).resolve_left (fun different => different same)
  · intro all number member
    by_cases same : (batch.submission number).key = run.key
    · exact .inr (all number member same)
    · exact .inl same

theorem left_cons (turn : Nat × Instant) (schedule : List (Nat × Instant)) (number : Nat) :
    left (turn :: schedule) number = left schedule number + if turn.1 = number then 1 else 0 := by
  simp [left, List.count_cons]

theorem settled_cons {number : Nat} {run : Run} (different : (batch.submission number).key ≠ run.key)
    (now : Instant) :
    batch.settled schedule run = batch.settled ((number, now) :: schedule) run := by
  rw [Bool.eq_iff_iff, settled_iff, settled_iff]
  have same : ∀ other, (batch.submission other).key = run.key →
      left ((number, now) :: schedule) other = left schedule other := by
    intro other isOf
    have apart : number ≠ other := by
      rintro rfl
      exact different isOf
    simp [left_cons, apart]
  constructor
  · intro all other member isOf
    rw [same other isOf]
    exact all other member isOf
  · intro all other member isOf
    rw [← same other isOf]
    exact all other member isOf

theorem not_settled {number : Nat} (member : number ∈ batch.numbers) {run : Run}
    (isOf : run.key = (batch.submission number).key) (turns : left schedule number = 1) :
    batch.settled schedule run = false := by
  apply Bool.eq_false_iff.mpr
  intro settled
  exact settled_iff.mp settled number member isOf.symm turns

theorem Fits.settled {start : System} (fits : batch.Fits start) {number : Nat}
    (member : number ∈ batch.numbers) {run : Run}
    (isOf : run.key = (batch.submission number).key) (turns : left schedule number = 0) :
    batch.settled schedule run = true := by
  apply settled_iff.mpr
  intro other otherMember same
  rw [← fits.keys number member other otherMember (isOf.symm.trans same.symm), turns]
  exact Nat.zero_ne_one

theorem Stands.of_other {next : System} {number turns : Nat}
    (stands : batch.Stands system number turns)
    (workers : next.workers number = system.workers number)
    (keys : system.store.runWithKey? (batch.submission number).key = none →
      next.store.runWithKey? (batch.submission number).key = none) :
    batch.Stands next number turns := by
  cases stands with
  | done => exact .done
  | committing id found => exact .committing id (workers.trans found)
  | acquiring found fresh => exact .acquiring (workers.trans found) (keys fresh)

/-- After a turn of one worker the others stand where they stood. -/
theorem stands_step {start next : System} {number : Nat} {now : Instant} (fits : batch.Fits start)
    (member : number ∈ batch.numbers)
    (stands : ∀ other ∈ batch.numbers,
      batch.Stands system other (left ((number, now) :: schedule) other))
    (workers : ∀ other, other ≠ number → next.workers other = system.workers other)
    (keys : ∀ key, key ≠ (batch.submission number).key →
      system.store.runWithKey? key = none → next.store.runWithKey? key = none)
    (own : batch.Stands next number (left schedule number)) :
    ∀ other ∈ batch.numbers, batch.Stands next other (left schedule other) := by
  intro other otherMember
  by_cases same : number = other
  · subst other
    exact own
  · have kept : left ((number, now) :: schedule) other = left schedule other := by
      simp [left_cons, same]
    rw [← kept]
    refine (stands other otherMember).of_other (workers other (Ne.symm same)) (keys _ ?_)
    intro equal
    exact same (fits.keys number member other otherMember equal.symm)

/-- With some turns still to come, the system is abreast of a store in which the requests that are
done were ingested one after another. -/
structure Underway (batch : Batch) (relabel : Relabel) (schedule : List (Nat × Instant))
    (system : System) (serial : Store) : Prop where
  reachable : ∃ events, system = System.after events
  regular : serial.Regular
  abreast : Store.Abreast relabel (batch.settled schedule) system.store serial
  stands : ∀ number ∈ batch.numbers, batch.Stands system number (left schedule number)

namespace Underway

variable {start : System} {relabel : Relabel} {serial : Store} {number : Nat} {now : Instant}
  {rest : List (Nat × Instant)}

theorem acquire (underway : batch.Underway relabel ((number, now) :: rest) system serial)
    (fits : batch.Fits start) (member : number ∈ batch.numbers)
    (found : system.workers number = some (.start batch.limits (batch.submission number)))
    (fresh : system.store.runWithKey? (batch.submission number).key = none)
    (turns : left rest number = 1) :
    let next := system.step (System.calmTurn (number, now))
    batch.Underway relabel rest next serial ∧ next.store.versions = system.store.versions := by
  intro next
  have sound := System.sound_of_reachable underway.reachable
  have stepped : next = _ := System.step_acquiring sound found rfl fresh now
  have versions : next.store.versions = system.store.versions := by
    rw [stepped]
    rfl
  refine ⟨⟨System.reachable_step underway.reachable _, underway.regular, ?_, ?_⟩, versions⟩
  · rw [stepped]
    refine underway.abreast.addRun ?_ fun row rowMember => ?_
    · exact not_settled member rfl turns
    · exact settled_cons (Ne.symm (Store.key_ne_of_runWithKey?_eq_none fresh rowMember)) now
  · refine stands_step fits member underway.stands (fun other apart => ?_) (fun key apart absent => ?_)
      ?_
    · simp [stepped, System.place_workers, apart]
    · rw [stepped, Store.runWithKey?_eq_none]
      intro run runMember
      rcases List.mem_append.mp runMember with runMember | runMember
      · exact Store.key_ne_of_runWithKey?_eq_none absent runMember
      · rw [List.mem_singleton.mp runMember]
        exact Ne.symm apart
    · rw [turns]
      refine .committing (.issued system.store.issued) ?_
      simp [stepped, System.place_workers, Worker.start, Acquisition.row]

theorem commit (underway : batch.Underway relabel ((number, now) :: rest) system serial)
    (fits : batch.Fits start) (member : number ∈ batch.numbers) {id : RowId} {tries : Nat}
    (found : system.workers number =
      some ⟨batch.limits, batch.submission number, .committing id 1 tries⟩)
    (turns : left rest number = 0) (again : Instant) :
    let next := system.step (System.calmTurn (number, now))
    let submission := batch.submission number
    serial.runWithKey? submission.key = none ∧
    (∃ relabel, batch.Underway relabel rest next (serial.ingestNew again submission)) ∧
    next.store.versions.length = system.store.versions.length + 1 ∧
    next.workers number = some ⟨batch.limits, submission, .answered (.ok ⟨id, false,
      some ⟨.issued system.store.issued, (serial.nextFor submission : Nat)⟩, 1⟩)⟩ := by
  intro next submission
  rcases underway.reachable with ⟨events, reached⟩
  have regular : system.store.Regular := reached ▸ System.regular_after events
  have owned : system.Owned := reached ▸ System.owned_after events
  rcases owned.rows found rfl with ⟨started, stored⟩
  have loopless := Submission.loopless_of_prepare (fits.prepared number member)
  let run := Acquisition.row id 1 started submission
  have stored : system.store.run? run.id = some run := stored
  have isOf : run.key = submission.key := rfl
  have stepped : next = _ := System.step_committing regular.sound regular.gapless loopless found
    rfl stored rfl rfl rfl now
  have hidden : ∀ row, row.key = submission.key →
      batch.settled ((number, now) :: rest) row = false := by
    intro row isOf
    refine not_settled member isOf ?_
    simp [left_cons, turns]
  have others : ∀ row ∈ system.store.runs, row.id ≠ run.id →
      batch.settled rest row = batch.settled ((number, now) :: rest) row := by
    intro row rowMember apart
    refine settled_cons (fun equal => apart ?_) now
    rw [regular.sound.eq_of_key rowMember (Store.mem_of_run? stored).1 equal.symm]
  have fresh := underway.abreast.fresh hidden
  have abreast : Store.Abreast (relabel.set run.id (.issued serial.issued)
      (.issued system.store.issued) (.issued (serial.issued + 1))) (batch.settled rest) next.store
      (serial.ingestNew again submission) := by
    rw [stepped]
    exact underway.abreast.commitRun regular underway.regular stored (hidden run isOf)
      (fun _ _ => fits.settled member isOf turns) others now again
  have same := underway.abreast.nextFor_eq regular.gapless underway.regular.gapless submission
  refine ⟨fresh, ⟨_, ⟨System.reachable_step underway.reachable _,
    underway.regular.ingestNew fresh again, abreast, ?_⟩⟩, ?_, ?_⟩
  · refine stands_step fits member underway.stands (fun other apart => ?_) (fun key apart absent => ?_)
      ?_
    · simp [stepped, System.place_workers, apart]
    · rw [stepped]
      exact Store.runWithKey?_commitRun stored absent ..
    · rw [turns]
      exact .done
  · rw [stepped]
    simp
  · rw [stepped, ← same]
    simp [System.place_workers, run, Acquisition.row, submission]

end Underway

/-- A worker has got the answer that its request got when it was ingested alone, but for ids. -/
def Agrees (batch : Batch) (system : System) (answers : List (Nat × Except StoreError Receipt))
    (number : Nat) : Prop :=
  ∃ receipt alone,
    system.workers number =
      some ⟨batch.limits, batch.submission number, .answered (.ok receipt)⟩ ∧
    (number, .ok alone) ∈ answers ∧ alone.reply = receipt.reply

theorem Agrees.cons {answers : List (Nat × Except StoreError Receipt)} {number : Nat}
    (agrees : batch.Agrees system answers number) (answer : Nat × Except StoreError Receipt) :
    batch.Agrees system (answer :: answers) number := by
  rcases agrees with ⟨receipt, alone, answered, member, same⟩
  exact ⟨receipt, alone, answered, List.mem_cons_of_mem _ member, same⟩

/-! ## Runs of a batch -/

/-- What the turns of a schedule have come to, next to the requests that are committed in them:
everybody with a turn has committed once and got the same answer. -/
structure Concluded (batch : Batch) (schedule : List (Nat × Instant)) (clock : Nat → Instant)
    (system : System) (serial : Store) (log : List Log.Entry) : Prop where
  counts : ∀ number,
    (system.committers (schedule.map System.calmTurn)).count number = min (left schedule number) 1
  underway : ∃ relabel, batch.Underway relabel [] (system.run (schedule.map System.calmTurn))
    (batch.ingestEach clock (system.committers (schedule.map System.calmTurn))
      ⟨serial, .none, log⟩).2.store
  agreed : ∀ number ∈ batch.numbers, 0 < left schedule number →
    batch.Agrees (system.run (schedule.map System.calmTurn))
      (batch.ingestEach clock (system.committers (schedule.map System.calmTurn))
        ⟨serial, .none, log⟩).1 number

theorem left_of_other {number other : Nat} (apart : other ≠ number) (now : Instant) :
    left ((number, now) :: schedule) other = left schedule other := by
  simp [left_cons, Ne.symm apart]

theorem left_self (number : Nat) (now : Instant) :
    left ((number, now) :: schedule) number = left schedule number + 1 := by
  simp [left_cons]

namespace Concluded

variable {clock : Nat → Instant} {serial : Store} {log : List Log.Entry} {number : Nat}
  {now : Instant} {rest : List (Nat × Instant)}

theorem nil {relabel : Relabel} (underway : batch.Underway relabel [] system serial) :
    batch.Concluded [] clock system serial log where
  counts := by simp [left, System.committers]
  underway := ⟨relabel, underway⟩
  agreed := by simp [left]

theorem acquire
    (next : batch.Concluded rest clock (system.step (System.calmTurn (number, now))) serial log)
    (versions : (system.step (System.calmTurn (number, now))).store.versions =
      system.store.versions) (turns : left rest number = 1) :
    batch.Concluded ((number, now) :: rest) clock system serial log := by
  have order : system.committers (((number, now) :: rest).map System.calmTurn) =
      (system.step (System.calmTurn (number, now))).committers (rest.map System.calmTurn) := by
    rw [List.map_cons, System.committers, versions, if_pos rfl]
  constructor
  · intro other
    rw [order, next.counts]
    by_cases same : other = number
    · rw [same, left_self, turns]
      rfl
    · rw [left_of_other same]
  · rw [order]
    exact next.underway
  · intro other member remains
    rw [order]
    refine next.agreed other member ?_
    by_cases same : other = number
    · rw [same, turns]
      exact Nat.one_pos
    · rwa [left_of_other same] at remains

theorem commit {receipt alone : Receipt} {after : Store} {noted : List Log.Entry}
    (came : (Service.ingest batch.limits (clock number) (batch.request number)).outcome
      ⟨serial, .none, log⟩ = (.ok alone, ⟨after, .none, noted⟩))
    (next : batch.Concluded rest clock (system.step (System.calmTurn (number, now))) after noted)
    (versions : (system.step (System.calmTurn (number, now))).store.versions.length ≠
      system.store.versions.length) (turns : left rest number = 0)
    (answered : (system.run (((number, now) :: rest).map System.calmTurn)).workers number =
      some ⟨batch.limits, batch.submission number, .answered (.ok receipt)⟩)
    (same : alone.reply = receipt.reply) :
    batch.Concluded ((number, now) :: rest) clock system serial log := by
  have order : system.committers (((number, now) :: rest).map System.calmTurn) =
      number ::
        (system.step (System.calmTurn (number, now))).committers (rest.map System.calmTurn) := by
    rw [List.map_cons, System.committers, if_neg versions]
    rfl
  constructor
  · intro other
    have counted := next.counts other
    rw [order]
    by_cases isOther : other = number
    · rw [isOther, turns] at counted
      rw [isOther, left_self, turns]
      simpa using counted
    · rw [left_of_other isOther, ← counted]
      exact List.count_cons_of_ne (Ne.symm isOther)
  · rw [order, ingestEach_cons _ came]
    exact next.underway
  · intro other member remains
    rw [order, ingestEach_cons _ came]
    by_cases isOther : other = number
    · subst other
      exact ⟨receipt, alone, answered, List.mem_cons_self .., same⟩
    · rw [left_of_other isOther] at remains
      exact (next.agreed other member remains).cons _

end Concluded

theorem workers_of_left (sound : system.store.Sound) {number : Nat}
    (turns : left schedule number = 0) :
    (system.run (schedule.map System.calmTurn)).workers number = system.workers number := by
  refine System.workers_run sound _ fun event member isOf => ?_
  rcases List.mem_map.mp member with ⟨turn, turnMember, rfl⟩
  refine List.count_eq_zero.mp turns ?_
  exact isOf ▸ List.mem_map_of_mem turnMember

theorem Underway.run {start : System} {relabel : Relabel} {serial : Store}
    (underway : batch.Underway relabel schedule system serial) (fits : batch.Fits start)
    (inside : ∀ turn ∈ schedule, turn.1 ∈ batch.numbers) (clock : Nat → Instant)
    (log : List Log.Entry) : batch.Concluded schedule clock system serial log := by
  induction schedule generalizing system serial relabel log with
  | nil => exact .nil underway
  | cons turn rest induction =>
      rcases turn with ⟨number, now⟩
      have parts := List.forall_mem_cons.mp inside
      have member : number ∈ batch.numbers := parts.1
      have stand := underway.stands number member
      rw [left_self] at stand
      generalize turns : left rest number = count at stand
      cases stand with
      | acquiring found fresh =>
          rcases underway.acquire fits member found fresh turns with ⟨next, versions⟩
          exact (induction next parts.2 log).acquire versions turns
      | committing id found =>
          rcases underway.commit fits member found turns (clock number) with
            ⟨fresh, ⟨relabel, next⟩, grown, answered⟩
          have alone := Service.ingest_new underway.regular (fits.prepared number member) fresh
            (clock number)
          rcases alone log with ⟨noted, came⟩
          have sound := System.sound_of_reachable next.reachable
          have last := (workers_of_left sound turns).trans answered
          exact (induction next parts.2 noted).commit came (by omega) turns last rfl

theorem run_arrivals {numbers : List Nat} (once : numbers.Nodup)
    (free : ∀ number ∈ numbers, system.workers number = none) (later : List Event) :
    let arrivals := numbers.map fun number =>
      Event.arrival number batch.limits (batch.submission number)
    (system.run arrivals).store = system.store ∧
    system.committers (arrivals ++ later) = (system.run arrivals).committers later ∧
    ∀ number, (system.run arrivals).workers number =
      if number ∈ numbers then some (.start batch.limits (batch.submission number))
      else system.workers number := by
  induction numbers generalizing system with
  | nil => simp [System.run]
  | cons number rest induction =>
      have onceParts := List.nodup_cons.mp once
      have freeParts := List.forall_mem_cons.mp free
      have arrived : system.step (.arrival number batch.limits (batch.submission number)) =
          system.place number (.start batch.limits (batch.submission number)) := by
        simp only [System.step, freeParts.1]
      have stillFree : ∀ other ∈ rest, (system.step (.arrival number batch.limits
          (batch.submission number))).workers other = none := by
        intro other member
        have apart : other ≠ number := by
          rintro rfl
          exact onceParts.1 member
        simp [arrived, System.place_workers, apart, freeParts.2 other member]
      rcases induction onceParts.2 stillFree with ⟨store, order, workers⟩
      refine ⟨store.trans (by rw [arrived]; rfl), ?_, fun other => (workers other).trans ?_⟩
      · rw [List.map_cons, List.cons_append, System.committers, if_pos (by rw [arrived]; rfl), order]
        rfl
      · by_cases same : other = number
        · subst other
          simp [onceParts.1, arrived, System.place_workers]
        · simp [same, arrived, System.place_workers]

theorem left_of_complete (once : batch.numbers.Nodup)
    (complete : (schedule.map Prod.fst).Perm (batch.numbers ++ batch.numbers)) (number : Nat) :
    left schedule number = if number ∈ batch.numbers then 2 else 0 := by
  rw [left, complete.count_eq, List.count_append]
  split
  · rw [List.count_eq_one_of_mem once ‹_›]
  · rw [List.count_eq_zero_of_not_mem ‹_›]

theorem Fits.underway {events : List Event} (fits : batch.Fits (System.after events))
    (complete : (schedule.map Prod.fst).Perm (batch.numbers ++ batch.numbers)) :
    let arrivals := batch.numbers.map fun number =>
      Event.arrival number batch.limits (batch.submission number)
    batch.Underway .same schedule ((System.after events).run arrivals)
      (System.after events).store := by
  intro arrivals
  rcases run_arrivals fits.once fits.free [] with ⟨store, -, workers⟩
  have lefts := left_of_complete fits.once complete
  refine ⟨⟨events ++ arrivals, ?_⟩, System.regular_after events, ?_, fun number member => ?_⟩
  · rw [System.after, System.after, System.run, System.run, System.run, List.foldl_append]
  · rw [store]
    refine .refl fun run _ => settled_iff.mpr fun number member _ => ?_
    simp [lefts, member]
  · rw [lefts, if_pos member]
    refine .acquiring ?_ ?_
    · rw [workers, if_pos member]
    · rw [store]
      exact fits.fresh number member

theorem Underway.alike {relabel : Relabel} {serial : Store}
    (underway : batch.Underway relabel [] system serial) : Store.Alike relabel system.store serial := by
  have all : ∀ run ∈ system.store.runs, batch.settled [] run = true := by
    intro run member
    apply settled_iff.mpr
    simp [left]
  have runs := underway.abreast.runs
  rw [List.filter_eq_self.mpr all] at runs
  have versions := underway.abreast.versions
  have runIds := (runs.map Run.id).nodup_iff.mpr (by
    rw [List.map_map]
    exact underway.regular.sound.ids)
  have versionIds := underway.regular.minted.ids
  rw [← versions] at versionIds
  rw [List.map_map] at runIds versionIds
  refine ⟨runs, versions, underway.abreast.heads, ?_, ?_⟩
  · intro first member second secondMember same
    exact congrArg Run.id (List.inj_on_of_nodup_map runIds member secondMember same)
  · intro first member second secondMember same
    exact congrArg Version.id (List.inj_on_of_nodup_map versionIds member secondMember same)

end Batch

open Batch

/-- Requests of different new keys that are ingested at the same time, each in two transactions
with which nothing goes wrong, come to what they come to one after another in the order of their
commits: the store is the same up to ids and times, and so are the answers. -/
theorem System.serializable (events : List Event) (batch : Batch) (fits : batch.Fits (after events))
    (schedule : List (Nat × Instant))
    (complete : (schedule.map Prod.fst).Perm (batch.numbers ++ batch.numbers))
    (clock : Nat → Instant) (log : List Log.Entry) :
    let start := after events
    let final := start.run (batch.events schedule)
    let order := start.committers (batch.events schedule)
    let serially := batch.ingestEach clock order ⟨start.store, .none, log⟩
    order.Perm batch.numbers ∧
    (∃ relabel, Store.Alike relabel final.store serially.2.store) ∧
    ∀ number ∈ batch.numbers, batch.Agrees final serially.1 number := by
  intro start final order serially
  have lefts := left_of_complete fits.once complete
  have inside : ∀ turn ∈ schedule, turn.1 ∈ batch.numbers := by
    intro turn member
    have listed := complete.mem_iff.mp (List.mem_map_of_mem member)
    simpa using listed
  have underway := fits.underway complete
  rcases underway.run fits inside clock log with ⟨counts, ⟨relabel, ended⟩, agreed⟩
  rcases run_arrivals fits.once fits.free (schedule.map calmTurn) with ⟨-, same, -⟩
  have isOrder : order = _ := same
  have isFinal : final = _ := List.foldl_append
  rw [← isOrder] at counts ended agreed
  rw [← System.run, ← System.run] at isFinal
  rw [← isFinal] at ended agreed
  refine ⟨?_, ⟨relabel, ended.alike⟩, fun number member => ?_⟩
  · apply List.perm_iff_count.mpr
    intro number
    rw [counts, lefts]
    split
    · rw [List.count_eq_one_of_mem fits.once ‹_›]
      rfl
    · rw [List.count_eq_zero_of_not_mem ‹_›]
      rfl
  · refine agreed number member ?_
    rw [lefts, if_pos member]
    exact Nat.two_pos

/-- The first of two requests is overtaken by the second one. -/
theorem System.serializable_overtaken :
    ∃ first second, Submission.prepare .standard (.bare "first") = .ok first ∧
      Submission.prepare .standard (.bare "second") = .ok second ∧
      let batch : Batch := ⟨.standard, [0, 1],
        fun number => if number = 0 then .bare "first" else .bare "second",
        fun number => if number = 0 then first else second⟩
      let start := after
        [.arrival 2 .standard (.bare "key" "payload"), .turn 2 .calm, .turn 2 .calm]
      let events := batch.events [(0, ⟨1⟩), (1, ⟨2⟩), (1, ⟨3⟩), (0, ⟨4⟩)]
      let final := start.run events
      let order := start.committers events
      let serially := batch.ingestEach (fun _ => ⟨5⟩) order ⟨start.store, .none, []⟩
      order.Perm [0, 1] ∧
      (∃ relabel, Store.Alike relabel final.store serially.2.store) ∧
      ∀ number ∈ [0, 1], batch.Agrees final serially.1 number := by
  have prepared : (∃ first, Submission.prepare .standard (.bare "first") = .ok first) ∧
      ∃ second, Submission.prepare .standard (.bare "second") = .ok second :=
    ⟨⟨_, rfl⟩, ⟨_, rfl⟩⟩
  rcases prepared with ⟨⟨first, isFirst⟩, ⟨second, isSecond⟩⟩
  have firstTrimmed : Submission.normalizeKey .standard "first" = .ok "first" := by rfl
  have secondTrimmed : Submission.normalizeKey .standard "second" = .ok "second" := by rfl
  have firstKey : first.key = "first" :=
    Except.ok.inj ((Submission.prepared_of_prepare isFirst).key.symm.trans firstTrimmed)
  have secondKey : second.key = "second" :=
    Except.ok.inj ((Submission.prepared_of_prepare isSecond).key.symm.trans secondTrimmed)
  have once : [0, 1].Nodup := by decide
  have complete : [0, 1, 1, 0].Perm ([0, 1] ++ [0, 1]) := by decide
  refine ⟨first, second, isFirst, isSecond, ?_⟩
  intro batch start
  have fits : batch.Fits start := by
    refine ⟨once, ?_, ?_, fun number member => ?_, fun number member => ?_⟩
    · simp [batch, isFirst, isSecond]
    · simp [batch, firstKey, secondKey]
    · have cases : number = 0 ∨ number = 1 := by simpa [batch] using member
      rcases cases with rfl | rfl
      · simp only [batch, if_true, firstKey]
        rfl
      · simp only [batch, Nat.one_ne_zero, if_false, secondKey]
        rfl
    · have cases : number = 0 ∨ number = 1 := by simpa [batch] using member
      rcases cases with rfl | rfl
      · rfl
      · rfl
  exact serializable _ batch fits [(0, ⟨1⟩), (1, ⟨2⟩), (1, ⟨3⟩), (0, ⟨4⟩)] complete _ _

end WorkspaceGraph
