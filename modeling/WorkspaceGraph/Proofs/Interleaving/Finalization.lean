import WorkspaceGraph.Proofs.Interleaving.Trials
/-!
What becomes of a run that was acquired. Within the limit of attempts a try that is lost is followed
by another one; in the end the run was committed once, or nothing of all the tries is left.
-/

namespace WorkspaceGraph

open Transaction

namespace Worker

variable {worker : Worker} {id : RowId} {attempt left : Nat} {error : StoreError}

/-- After a try a worker tries again if it has lost the number and has tries left, and never
else. -/
theorem afterCommit_cases (id : RowId) (attempt left : Nat) (result : Except StoreError Commit) :
    (Commit.isLost result = true ∧ ∃ fewer, left = fewer + 1 ∧
      afterCommit id attempt left result = .committing id attempt fewer) ∨
    ((Commit.isLost result = false ∨ left = 0) ∧ ∀ other again fewer,
      afterCommit id attempt left result ≠ .committing other again fewer) := by
  cases result with
  | ok made => exact .inr ⟨.inl rfl, by simp [afterCommit]⟩
  | error error =>
      cases error with
      | versionTaken workspaceId version =>
          cases left with
          | zero => exact .inr ⟨.inr rfl, by simp [afterCommit]⟩
          | succ fewer => exact .inl ⟨rfl, fewer, rfl, rfl⟩
      | _ => exact .inr ⟨.inl rfl, by simp [afterCommit]⟩

theorem afterCommit_ended (ended : error.isVersionTaken = false ∨ left = 0) :
    afterCommit id attempt left (.error error) = .failing id attempt error := by
  rcases afterCommit_error id attempt left error with fails | ⟨fewer, rfl, again⟩
  · exact fails
  · cases error with
    | versionTaken workspaceId version => simp [StoreError.isVersionTaken] at ended
    | _ => rfl

theorem attempt?_afterCommit_error (id : RowId) (attempt left : Nat) (error : StoreError) :
    (afterCommit id attempt left (.error error)).attempt? = some (id, attempt) := by
  rcases afterCommit_error id attempt left error with fails | ⟨fewer, -, again⟩
  · rw [fails]
    rfl
  · rw [again]
    rfl

theorem turn_failing (stage : worker.stage = .failing id attempt error)
    (circumstances : Circumstances) (seen : Option Head) (store : Store) :
    let saved := ((Failure.ofError error).save circumstances.now id).execute store
      circumstances.faults
    worker.turn circumstances seen store = (afterFailure error saved.1, saved.2.1) := by
  simp only [turn, stage]

end Worker

/-- The service makes no other try after one that is not lost, or that was the last. -/
theorem Service.outcome_commitFrom_ended {commit : Transaction Commit}
    {lost : Option Int → Nat → Log.Entry} {count left : Nat} {world : World}
    (ended : Commit.isLost (commit.execute world.store world.faults).1 = false ∨ left = 0) :
    (commitFrom commit lost count left).outcome world =
      ((commit.execute world.store world.faults).1,
        { world with
          store := (commit.execute world.store world.faults).2.1
          faults := (commit.execute world.store world.faults).2.2 }) := by
  rw [outcome_commitFrom, outcome_transact]
  generalize commit.execute world.store world.faults = executed at ended
  rcases executed with ⟨error | made, store, faults⟩
  · cases left with
    | zero => cases error <;> rfl
    | succ left =>
        have notLost := ended.resolve_right (Nat.succ_ne_zero left)
        cases error with
        | versionTaken workspaceId version => cases notLost
        | _ => rfl
  · rfl

namespace System

variable {system : System} {number : Nat} {worker : Worker} {id : RowId} {attempt left : Nat}

/-! ## Rounds -/

/-- What some rounds come to for a worker that tries to commit a run and has so many tries left
after the next one. -/
structure Tried (system : System) (number : Nat) (worker : Worker) (id : RowId)
    (attempt left : Nat) (rounds : List Round) : Prop where
  bounded : (system.trials number rounds).length ≤ left + 1
  retried : ∀ trial ∈ (system.trials number rounds).dropLast, trial.isLost = true
  pursued : (system.trials number rounds).length < rounds.length →
    (system.trials number rounds).length ≤ left →
    ∃ last, (system.trials number rounds).getLast? = some last ∧ last.isLost = false
  fair : ∀ trial ∈ system.trials number rounds, trial.Fair worker.submission id
  reachable : ∀ trial ∈ system.trials number rounds, ∃ events, trial.after = after events
  stands : ∀ last, (system.trials number rounds).getLast? = some last →
    last.after.workers number = some { worker with
      stage := Worker.afterCommit id attempt (left + 1 - (system.trials number rounds).length)
        last.result }

namespace Tried

variable {round : Round} {rest : List Round} {trial : Trial}

theorem nil : system.Tried number worker id attempt left [] := by
  constructor <;> simp [trials]

theorem only (made : system.trials number (round :: rest) = [trial])
    (ended : trial.isLost = false ∨ left = 0) (fair : trial.Fair worker.submission id)
    (reachable : ∃ events, trial.after = after events)
    (stands : trial.after.workers number =
      some { worker with stage := Worker.afterCommit id attempt left trial.result }) :
    system.Tried number worker id attempt left (round :: rest) := by
  constructor
  · simp [made]
  · simp [made]
  · rw [made]
    intro _ few
    refine ⟨trial, rfl, ended.resolve_right fun none => ?_⟩
    simp [none] at few
  · simpa [made] using fair
  · simpa [made] using reachable
  · rw [made]
    rintro last ⟨⟩
    simpa using stands

theorem cons {fewer : Nat}
    (made : system.trials number (round :: rest) = trial :: trial.after.trials number rest)
    (lost : trial.isLost = true) (fair : trial.Fair worker.submission id)
    (reachable : ∃ events, trial.after = after events)
    (stands : trial.after.workers number =
      some { worker with stage := Worker.afterCommit id attempt (fewer + 1) trial.result })
    (others : trial.after.Tried number { worker with stage := .committing id attempt fewer } id
      attempt fewer rest) :
    system.Tried number worker id attempt (fewer + 1) (round :: rest) := by
  rcases others with ⟨bounded, retried, pursued, fairs, reached, standsLast⟩
  constructor
  · rw [made, List.length_cons]
    omega
  · rw [made]
    cases more : trial.after.trials number rest with
    | nil => simp
    | cons next _ =>
        rw [more] at retried
        rw [List.dropLast_cons_of_ne_nil (List.cons_ne_nil _ _)]
        exact List.forall_mem_cons.mpr ⟨lost, retried⟩
  · rw [made, List.length_cons, List.length_cons]
    intro short few
    rcases pursued (by omega) (by omega) with ⟨last, isLast, notLost⟩
    exact ⟨last, by simp [List.getLast?_cons, isLast], notLost⟩
  · rw [made]
    exact List.forall_mem_cons.mpr ⟨fair, fairs⟩
  · rw [made]
    exact List.forall_mem_cons.mpr ⟨reachable, reached⟩
  · rw [made, List.getLast?_cons, List.length_cons]
    intro last isLast
    cases more : (trial.after.trials number rest).getLast? with
    | none =>
        rw [more] at isLast
        cases isLast
        simpa [List.getLast?_eq_none_iff.mp more] using stands
    | some final =>
        rw [more] at isLast
        cases isLast
        have ended := standsLast final more
        rwa [show fewer + 1 + 1 - ((trial.after.trials number rest).length + 1) =
          fewer + 1 - (trial.after.trials number rest).length by omega]

end Tried

/-- What one try keeps, all rounds keep, by induction on them. A lost try leaves the worker one
try less and is followed by the other rounds. -/
theorem tried {rounds : List Round} (reachable : ∃ events, system = after events)
    (found : system.workers number = some worker)
    (stage : worker.stage = .committing id attempt left)
    (apart : ∀ round ∈ rounds, ∀ event ∈ round.rivals, event.number ≠ number) :
    system.Tried number worker id attempt left rounds := by
  induction rounds generalizing system worker left with
  | nil => exact .nil
  | cons round rest induction =>
      have parts := List.forall_mem_cons.mp apart
      have before := reachable_run reachable round.rivals
      have still :=
        (workers_run (sound_of_reachable reachable) round.rivals parts.1).trans found
      let trial := (system.run round.rivals).trial number worker id round.circumstances
      have made : system.trials number (round :: rest) =
          trial :: trial.after.trials number rest := trials_cons still stage
      have fair : trial.Fair worker.submission id :=
        trial_fair before still stage round.circumstances
      have next : trial.after.workers number = some { worker with
          stage := Worker.afterCommit id attempt left trial.result } :=
        (trial_after still stage round.circumstances).1
      have reached : ∃ events, trial.after = after events :=
        reachable_step before (.turn number round.circumstances)
      rcases Worker.afterCommit_cases id attempt left trial.result with
        ⟨lost, fewer, rfl, again⟩ | ⟨ended, stops⟩
      · have waiting := next
        rw [again] at waiting
        exact .cons made lost fair reached next (induction reached waiting rfl parts.2)
      · have none := trials_ended (sound_of_reachable reached) next
          (fun id attempt left => stops id attempt left) parts.2
        rw [none] at made
        exact .only made ended fair reached next

/-! ## In one go -/

theorem execute_committing (system : System) (worker : Worker) (id : RowId) (now : Instant)
    (faults : Faults) :
    (system.committing worker id ⟨now, faults, 0⟩).execute system.store faults =
      (worker.commit now id).execute system.store faults := by
  have seen : system.headBefore 0 worker.submission.workspaceId =
      system.store.head? worker.submission.workspaceId := rfl
  rw [committing, seen, Worker.commitAfter, Commit.execute_seeing, Worker.commit]

/-- The result is what a worker's tries come to that have no rivals and are all made at the given
time, in as many rounds. -/
def Unrivalled (system : System) (number : Nat) (now : Instant)
    (result : Except StoreError Commit × World) : Prop :=
  ∃ rounds last, (∀ round ∈ rounds, round.rivals = [] ∧ round.circumstances.now = now) ∧
    (system.trials number rounds).length = rounds.length ∧
    (system.trials number rounds).getLast? = some last ∧
    result.1 = last.result ∧ result.2.store = last.after.store

theorem unrivalled_last (found : system.workers number = some worker)
    (stage : worker.stage = .committing id attempt left) (now : Instant)
    (lost : Option Int → Nat → Log.Entry) (count : Nat) (faults : Faults) (log : List Log.Entry)
    (ended : Commit.isLost ((worker.commit now id).execute system.store faults).1 = false ∨
      left = 0) :
    system.Unrivalled number now
      ((Service.commitFrom (worker.commit now id) lost count left).outcome
        ⟨system.store, faults, log⟩) := by
  have after := (trial_after found stage ⟨now, faults, 0⟩).2
  have made : system.trials number [⟨[], ⟨now, faults, 0⟩⟩] =
      [system.trial number worker id ⟨now, faults, 0⟩] := trials_cons found stage
  refine ⟨[⟨[], ⟨now, faults, 0⟩⟩], system.trial number worker id ⟨now, faults, 0⟩, by simp,
    by rw [made]; rfl, by rw [made]; rfl, ?_⟩
  rw [Service.outcome_commitFrom_ended ended, after, execute_committing]
  exact ⟨congrArg Prod.fst (execute_committing ..).symm, rfl⟩

/-- What the service commits in one go is what comes of such tries. -/
theorem unrivalled_commitFrom (found : system.workers number = some worker)
    (stage : worker.stage = .committing id attempt left) (now : Instant)
    (lost : Option Int → Nat → Log.Entry) (count : Nat) (faults : Faults) (log : List Log.Entry) :
    system.Unrivalled number now
      ((Service.commitFrom (worker.commit now id) lost count left).outcome
        ⟨system.store, faults, log⟩) := by
  induction left generalizing system worker count faults log with
  | zero => exact unrivalled_last found stage now lost count faults log (.inr rfl)
  | succ left induction =>
      let trial := system.trial number worker id ⟨now, faults, 0⟩
      have after : trial.after.workers number = _ ∧ trial.after.store = _ :=
        trial_after found stage ⟨now, faults, 0⟩
      have result : trial.result = _ := congrArg Prod.fst (execute_committing ..)
      have outcome := Service.outcome_commitFrom (worker.commit now id) lost count (left + 1)
        ⟨system.store, faults, log⟩
      rw [Service.outcome_transact] at outcome
      rw [execute_committing] at after
      rcases executed : (worker.commit now id).execute system.store faults with
        ⟨error | made, store, rest⟩
      · cases error with
        | versionTaken workspaceId version =>
            rw [executed] at after result outcome
            rw [result] at after
            -- The try is lost, so the worker goes on as the service does.
            rcases induction after.1 rfl (count + 1) rest (log ++ [lost version count]) with
              ⟨rounds, last, alone, length, isLast, same⟩
            have made : system.trials number (⟨[], ⟨now, faults, 0⟩⟩ :: rounds) =
                trial :: trial.after.trials number rounds := trials_cons found stage
            rw [after.2] at same
            refine ⟨⟨[], ⟨now, faults, 0⟩⟩ :: rounds, last,
              List.forall_mem_cons.mpr ⟨⟨rfl, rfl⟩, alone⟩, ?_, ?_, outcome ▸ same⟩
            · rw [made, List.length_cons, List.length_cons, length]
            · rw [made, List.getLast?_cons, isLast]
              rfl
        | _ =>
            exact unrivalled_last found stage now lost count faults log
              (.inl (by rw [executed]; rfl))
      · exact unrivalled_last found stage now lost count faults log (.inl (by rw [executed]; rfl))

/-! ## Giving up -/

/-- A worker has failed to commit a run. It records that and answers so, whatever the others do
before. -/
structure GivesUp (system : System) (number : Nat) (worker : Worker) (id : RowId)
    (error : StoreError) : Prop where
  failing : ∃ attempt, system.workers number =
    some { worker with stage := .failing id attempt error }
  recorded : ∀ between, (∀ event ∈ between, event.number ≠ number) → ∀ now age,
    let late := system.run between
    let final := late.step (.turn number ⟨now, .none, age⟩)
    ∃ run, late.store.run? id = some run ∧
      final.store = late.store.putRun ((Failure.ofError error).row now run) ∧
      final.workers number = some { worker with
        stage := .answered (.error (Service.answerTo error (.ofError error))) }

theorem givesUp_of_failing {error : StoreError} (reachable : ∃ events, system = after events)
    (found : system.workers number =
      some { worker with stage := .failing id attempt error }) :
    system.GivesUp number worker id error where
  failing := ⟨attempt, found⟩
  recorded := by
    intro between apart now age late
    have still : late.workers number = _ :=
      (workers_run (sound_of_reachable reachable) between apart).trans found
    have reached : ∃ events, late = after events := reachable_run reachable between
    have sound := sound_of_reachable reached
    have owned : late.Owned := reached.elim fun events isAfter => isAfter ▸ owned_after events
    rcases owned.owns sound still rfl with ⟨started, owns⟩
    let run := Acquisition.row id attempt started worker.submission
    have saved := owns.fails now (.ofError error) .none
    rcases executed : ((Failure.ofError error).save now run.id).execute late.store .none with
      ⟨other | status, left, rest⟩
    · rw [executed] at saved
      have never : ¬ Faults.none.Raises other := by simp [Faults.Raises, Faults.none]
      exact (saved.2.elim never False.elim).elim
    · rw [executed] at saved
      have turned : ∀ seen, Worker.turn { worker with stage := .failing run.id attempt error }
          ⟨now, .none, age⟩ seen late.store =
            (.answered (.error (Service.answerTo error (.ofError error))), left) := by
        intro seen
        rw [Worker.turn_failing rfl, executed]
        rfl
      have came := step_turn still turned
      exact ⟨run, owns.row, came.1.trans saved.2, came.2⟩

/-! ## In the end -/

structure Finalization (system : System) (number : Nat) (worker : Worker) (id : RowId)
    (rounds : List Round) : Prop where
  bounded : (system.trials number rounds).length ≤ worker.limits.attempts
  /-- All tries but the last one are lost. -/
  retried : ∀ trial ∈ (system.trials number rounds).dropLast, trial.isLost = true
  /-- If neither the rounds nor the attempts were used up, the last one is not. -/
  pursued : (system.trials number rounds).length < rounds.length →
    (system.trials number rounds).length < worker.limits.attempts →
    ∃ last, (system.trials number rounds).getLast? = some last ∧ last.isLost = false
  fair : ∀ trial ∈ system.trials number rounds, trial.Fair worker.submission id
  /-- The run has made a version if and only if one of the tries went through. -/
  committed : ∀ last, (system.trials number rounds).getLast? = some last →
    ((∃ version ∈ last.after.store.versions, version.runId = id) ↔
      ∃ trial ∈ system.trials number rounds, ∃ made, trial.result = .ok made)
  answered : ∀ last made, (system.trials number rounds).getLast? = some last →
    last.result = .ok made →
    last.after.workers number = some { worker with
      stage := .answered (.ok ⟨made.run, false, some made.linkage, made.attempts⟩) }
  /-- An error that is no lost race is the end, and so is the last race that is lost. -/
  gaveUp : ∀ last error, (system.trials number rounds).getLast? = some last →
    last.result = .error error →
    last.isLost = false ∨ (system.trials number rounds).length = worker.limits.attempts →
    last.after.GivesUp number worker id error
  /-- The run and the answer tell that all races were lost. -/
  exhausted : ∀ last, (system.trials number rounds).getLast? = some last → last.isLost = true →
    (system.trials number rounds).length = worker.limits.attempts →
    ∀ between, (∀ event ∈ between, event.number ≠ number) → ∀ now age,
      let final := (last.after.run between).step (.turn number ⟨now, .none, age⟩)
      ∃ run answer, final.store.run? id = some run ∧ run.status = .failed ∧
        run.errorCode = some "GRAPH_VERSION_CONFLICT" ∧
        final.workers number =
          some { worker with stage := .answered (.error (.ingestion answer)) } ∧
        answer.kind = .failed ∧ answer.code = "GRAPH_VERSION_CONFLICT"

theorem runId_ne_of_attempt (reachable : ∃ events, system = after events)
    (found : system.workers number = some worker)
    (holds : worker.stage.attempt? = some (id, attempt)) :
    ∀ version ∈ system.store.versions, version.runId ≠ id := by
  rcases reachable with ⟨events, rfl⟩
  rcases (owned_after events).rows found holds with ⟨started, stored⟩
  have parts := Store.mem_of_run? stored
  intro version member
  rw [← parts.2]
  exact (regular_after events).runId_ne parts.1 (by simp [Acquisition.row]) member

theorem GivesUp.exhausted {error : StoreError}
    (gaveUp : system.GivesUp number worker id error) (sound : system.store.Sound)
    (taken : error.isVersionTaken = true) {between : List Event}
    (apart : ∀ event ∈ between, event.number ≠ number) (now : Instant) (age : Nat) :
    let final := (system.run between).step (.turn number ⟨now, .none, age⟩)
    ∃ run answer, final.store.run? id = some run ∧ run.status = .failed ∧
      run.errorCode = some "GRAPH_VERSION_CONFLICT" ∧
      final.workers number =
        some { worker with stage := .answered (.error (.ingestion answer)) } ∧
      answer.kind = .failed ∧ answer.code = "GRAPH_VERSION_CONFLICT" := by
  intro final
  rcases gaveUp.recorded between apart now age with ⟨run, stored, left, answered⟩
  have parts := Store.mem_of_run? stored
  have lateSound := sound_run sound between
  let marked := (Failure.ofError error).row now run
  have found : (system.run between).store.run? marked.id = some run := by
    rw [← parts.2] at stored
    exact stored
  have put := lateSound.run?_putRun found rfl (lateSound.attempts run parts.1)
  have isId : marked.id = id := parts.2
  cases error with
  | versionTaken workspaceId version =>
      have code : (Failure.ofError (.versionTaken workspaceId version)).code =
          "GRAPH_VERSION_CONFLICT" := by rfl
      refine ⟨marked, .attemptFailed _ _, ?_, rfl, congrArg some code, answered, ?_, ?_⟩
      · rw [left, ← isId]
        exact put
      · rw [code]
        rfl
      · rw [code]
        rfl
  | _ => cases taken

namespace Tried

variable {rounds : List Round} {last : Trial}

theorem givesUp (tried : system.Tried number worker id attempt left rounds)
    (isLast : (system.trials number rounds).getLast? = some last) {error : StoreError}
    (failed : last.result = .error error)
    (ended : last.isLost = false ∨ (system.trials number rounds).length = left + 1) :
    last.after.GivesUp number worker id error := by
  have stage := tried.stands last isLast
  rw [failed, Worker.afterCommit_ended] at stage
  · exact givesUp_of_failing (tried.reachable last (List.mem_of_getLast? isLast)) stage
  · rw [Trial.isLost, failed] at ended
    exact ended.imp_right fun all => by omega

theorem through_iff (tried : system.Tried number worker id attempt left rounds)
    (isLast : (system.trials number rounds).getLast? = some last) :
    (∃ trial ∈ system.trials number rounds, ∃ made, trial.result = .ok made) ↔
      ∃ made, last.result = .ok made := by
  constructor
  · rintro ⟨trial, member, made, through⟩
    have retried := tried.retried
    rcases List.getLast?_eq_some_iff.mp isLast with ⟨earlier, split⟩
    rw [split] at member retried
    rw [List.dropLast_concat] at retried
    rcases List.mem_append.mp member with before | same
    · have lost := retried trial before
      rw [Trial.isLost, through] at lost
      cases lost
    · cases List.mem_singleton.mp same
      exact ⟨made, through⟩
  · rintro ⟨made, through⟩
    exact ⟨last, List.mem_of_getLast? isLast, made, through⟩

theorem committed_iff (tried : system.Tried number worker id attempt left rounds)
    (isLast : (system.trials number rounds).getLast? = some last) :
    (∃ version ∈ last.after.store.versions, version.runId = id) ↔
      ∃ made, last.result = .ok made := by
  have member := List.mem_of_getLast? isLast
  have stage := tried.stands last isLast
  cases result : last.result with
  | ok made =>
      rcases (tried.fair last member).written made result with ⟨version, run, isRun, added, -⟩
      refine iff_of_true ⟨version, ?_, added.origin.trans isRun⟩ ⟨made, rfl⟩
      rw [added.versions]
      exact List.mem_append_right _ (List.mem_singleton_self version)
  | error error =>
      -- After a try that fails, the run is still in progress.
      rw [result] at stage
      refine iff_of_false ?_ (by simp)
      rintro ⟨version, versionMember, origin⟩
      have still := Worker.attempt?_afterCommit_error id attempt
        (left + 1 - (system.trials number rounds).length) error
      exact runId_ne_of_attempt (tried.reachable last member) stage still version versionMember
        origin

theorem finalization
    (tried : system.Tried number worker id attempt (worker.limits.attempts - 1) rounds) :
    system.Finalization number worker id rounds := by
  have positive : 1 ≤ worker.limits.attempts := Nat.le_max_right ..
  have enough : worker.limits.attempts - 1 + 1 = worker.limits.attempts := by omega
  refine ⟨enough ▸ tried.bounded, tried.retried, ?_, tried.fair, ?_, ?_, ?_, ?_⟩
  · intro short few
    exact tried.pursued short (by omega)
  · intro last isLast
    exact (tried.committed_iff isLast).trans (tried.through_iff isLast).symm
  · intro last made isLast committed
    have stage := tried.stands last isLast
    rwa [committed] at stage
  · intro last error isLast failed ended
    exact tried.givesUp isLast failed (by rwa [enough])
  · intro last isLast lost all between apart now age
    have reached := tried.reachable last (List.mem_of_getLast? isLast)
    cases result : last.result with
    | ok made =>
        rw [Trial.isLost, result] at lost
        cases lost
    | error error =>
        rw [Trial.isLost, result] at lost
        have gaveUp := tried.givesUp isLast result (.inr (by omega))
        exact gaveUp.exhausted (sound_of_reachable reached) lost apart now age

end Tried

/-- A run that was acquired is committed once or not at all. Whatever the others do before each
try and whatever the try meets with, there are as many tries at most as the limit says, and one at
least; they go on until one of them is not lost; the one that goes through adds the version after
the head as the others left it, and those that do not leave nothing behind. The commit of the
service is made of such tries. -/
theorem commit_tried (events : List Event) {number : Nat} {worker : Worker} {id : RowId}
    {attempt : Nat} (found : (after events).workers number = some worker)
    (acquired : worker.stage = .committing id attempt (worker.limits.attempts - 1)) :
    (worker.limits.attempts : Int) = max worker.limits.finalizeAttempts 1 ∧
    (∀ rounds, (∀ round ∈ rounds, ∀ event ∈ round.rivals, event.number ≠ number) →
      (after events).Finalization number worker id rounds) ∧
    ∀ now faults log, (after events).Unrivalled number now
      ((Service.commit worker.limits now id worker.submission.workspaceId
        worker.submission.payloadHash worker.submission.snapshot).outcome
          ⟨(after events).store, faults, log⟩) := by
  refine ⟨?_, fun rounds apart => ?_, fun now faults log => ?_⟩
  · rw [Limits.attempts]
    omega
  · exact (tried ⟨events, rfl⟩ found acquired apart).finalization
  · exact unrivalled_commitFrom found acquired now _ 1 faults log

def overtaken : List Round :=
  [⟨[.arrival 1 .standard (.bare "other" "payload"), .turn 1 .calm, .turn 1 .calm],
    ⟨⟨0⟩, .none, 1⟩⟩, ⟨[], .calm⟩]

theorem commit_tried_overtaken :
    (after [.arrival 0 .standard (.bare "key" "payload"), .turn 0 .calm]).Finalization 0
      ⟨.standard, .bare "key" "payload", .committing (.issued 0) 1 4⟩ (.issued 0) overtaken := by
  refine (@commit_tried _ 0 ⟨.standard, .bare "key" "payload", .committing (.issued 0) 1 4⟩ _ _
    rfl rfl).2.1 overtaken ?_
  simp [overtaken, Event.number]

example : ((after [.arrival 0 .standard (.bare "key" "payload"), .turn 0 .calm]).trials 0
    overtaken).map Trial.isLost = [true, false] := by rfl

end System

end WorkspaceGraph
