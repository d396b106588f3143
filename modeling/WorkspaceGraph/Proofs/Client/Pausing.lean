import WorkspaceGraph.CommandLine.IngestCommand
import WorkspaceGraph.Proofs.Client.Retrying
import WorkspaceGraph.Proofs.Number.Binary64
/-!
How long the pauses are. Between positive numbers the pause is the initial one, doubled exactly with
every attempt and cut off at the greatest one, so that it never gets shorter. This goes on for as
long as the factor has a floating-point number: after that no pause can be computed whatever the
numbers are, and posting breaks off with a failure of another kind.
-/

namespace WorkspaceGraph.Client

open Binary64 (IsPositive)

variable {client : Client} {initial greatest pause : Binary64} {attempt : Nat}
  {outcome : Nat → Outcome} {payload : Json}

structure Paced (client : Client) (initial greatest : Binary64) : Prop where
  initial_eq : client.initialPause = .real initial
  greatest_eq : client.greatestPause = .real greatest
  initialPositive : initial.IsPositive
  greatestPositive : greatest.IsPositive

def grown (initial : Binary64) (attempt : Nat) : ℚ := initial.value * 2 ^ (attempt - 1)

structure IsDue (initial greatest : Binary64) (attempt : Nat) (pause : Binary64) : Prop where
  positive : pause.IsPositive
  value_eq : pause.value = min (grown initial attempt) greatest.value
  capped : greatest.value < grown initial attempt → pause = greatest

structure Unanswered (client : Client) (outcome : Nat → Outcome) (payload : Json) : Prop where
  writable : hasWritableHeader (client.request payload) = true
  passing : ∀ attempt, (outcome attempt).isPassing = true

/-! ## One pause -/

theorem grown_le_grown (positive : initial.IsPositive) {later : Nat} (order : attempt ≤ later) :
    grown initial attempt ≤ grown initial later := by
  have factor : (2 : ℚ) ^ (attempt - 1) ≤ 2 ^ (later - 1) :=
    pow_le_pow_right₀ one_le_two (Nat.sub_le_sub_right order 1)
  exact mul_le_mul_of_nonneg_left factor positive.value_pos.le

theorem exists_isDue (initialPositive : initial.IsPositive) (greatestPositive : greatest.IsPositive)
    (attempt : Nat) : ∃ pause, IsDue initial greatest attempt pause ∧
      (Amount.real (initial.scale (attempt - 1))).min (.real greatest) = .real pause := by
  have scaled := initialPositive.rounded_scale (attempt - 1)
  generalize initial.scale (attempt - 1) = doubled at scaled
  cases scaled with
  | infinite great =>
      have less := lt_of_lt_of_le greatestPositive.value_lt great
      have cut : (Amount.real greatest).lt (.real (.infinite false)) = true :=
        greatestPositive.lt_infinite
      exact ⟨greatest, ⟨greatestPositive, (min_eq_right less.le).symm, fun _ => rfl⟩, by
        rw [Amount.min, if_pos cut]⟩
  | number positive exact =>
      have order : (Amount.real greatest).lt (.real doubled) = true ↔
          greatest.value < grown initial attempt := by
        rw [grown, ← exact]
        exact greatestPositive.lt_iff positive
      by_cases less : greatest.value < grown initial attempt
      · exact ⟨greatest, ⟨greatestPositive, (min_eq_right less.le).symm, fun _ => rfl⟩, by
          rw [Amount.min, if_pos (order.mpr less)]⟩
      · refine ⟨doubled, ⟨positive, ?_, fun more => absurd more less⟩, ?_⟩
        · rw [min_eq_left (not_lt.mp less)]
          exact exact
        · rw [Amount.min, if_neg (mt order.mp less)]

theorem Paced.pauseAfter_eq (paced : client.Paced initial greatest) (attempt : Nat) :
    client.pauseAfter attempt = if scaleLimit ≤ attempt - 1 then none
      else some ((Amount.real (initial.scale (attempt - 1))).min (.real greatest)) := by
  have steps : ((attempt : Int) - 1).toNat = attempt - 1 := by omega
  rw [pauseAfter, pause?, paced.initial_eq, paced.greatest_eq, steps, double?]
  split
  · rfl
  · rfl

theorem Paced.exists_pauseAfter (paced : client.Paced initial greatest)
    (within : attempt ≤ scaleLimit) :
    ∃ pause, IsDue initial greatest attempt pause ∧
      client.pauseAfter attempt = some (.real pause) := by
  rcases exists_isDue paced.initialPositive paced.greatestPositive attempt with ⟨pause, due, cut⟩
  have limit : 0 < scaleLimit := by decide
  refine ⟨pause, due, ?_⟩
  rw [paced.pauseAfter_eq, if_neg (by omega), cut]

theorem Paced.isSome_pauseAfter (paced : client.Paced initial greatest)
    (within : attempt ≤ scaleLimit) : (client.pauseAfter attempt).isSome = true := by
  rcases paced.exists_pauseAfter within with ⟨pause, -, due⟩
  rw [due]
  rfl

theorem Paced.pauseAfter_eq_none (paced : client.Paced initial greatest)
    (beyond : scaleLimit < attempt) : client.pauseAfter attempt = none := by
  rw [paced.pauseAfter_eq, if_pos (by omega)]

theorem Paced.value_eq (paced : client.Paced initial greatest)
    (paused : client.pauseAfter attempt = some (.real pause)) :
    pause.value = min (grown initial attempt) greatest.value := by
  by_cases within : attempt ≤ scaleLimit
  · rcases paced.exists_pauseAfter within with ⟨due, isDue, due_eq⟩
    cases due_eq.symm.trans paused
    exact isDue.value_eq
  · cases (paced.pauseAfter_eq_none (Nat.lt_of_not_le within)).symm.trans paused

/-! ## Posting without a final answer -/

theorem verdict_of_isPassing {ending : Outcome} (client : Client) (attempt : Nat)
    (passing : ending.isPassing = true) :
    ∃ trouble, client.verdict attempt ending =
      .error (.rejected (client.label attempt ++ trouble)) := by
  cases result : client.verdict attempt ending with
  | ok response =>
      rcases verdict_eq_ok_iff.mp result with ⟨rfl, taken⟩
      have transient : isTransient response.status = true := passing
      rcases taken with taken | taken <;> rw [taken] at transient <;> cases transient
  | error error =>
      have unbroken : ∀ kind message, ending ≠ .broken kind message := by
        rintro kind message rfl
        cases passing
      rcases verdict_eq_error unbroken result with ⟨trouble, rfl⟩
      exact ⟨trouble, rfl⟩

theorem Unanswered.post_rejected (unanswered : client.Unanswered outcome payload)
    (usable : client.isUsable = true) (paced : client.Paced initial greatest)
    (within : client.attempts ≤ scaleLimit + 1) :
    let transcript := client.post outcome payload
    transcript.requests = List.replicate client.attempts.toNat (client.request payload) ∧
      ∃ trouble, transcript.result =
        .error (.rejected (client.label client.attempts.toNat ++ trouble)) := by
  intro transcript
  have usable : 1 ≤ client.attempts := of_decide_eq_true usable
  have stops : client.Stops outcome client.attempts.toNat := ⟨by omega, .inl (by omega)⟩
  rcases post_last unanswered.writable stops (by omega)
    (fun attempt _ _ => unanswered.passing attempt)
    (fun attempt _ before => paced.isSome_pauseAfter (by omega)) with ⟨requests, -, result⟩
  rcases verdict_of_isPassing client client.attempts.toNat
    (unanswered.passing client.attempts.toNat) with ⟨trouble, verdict_eq⟩
  exact ⟨requests, trouble, result.trans verdict_eq⟩

/-- With more attempts posting breaks off after the first one whose pause cannot be computed. -/
theorem Unanswered.post_overflow (unanswered : client.Unanswered outcome payload)
    (paced : client.Paced initial greatest) (beyond : scaleLimit + 1 < client.attempts) :
    let transcript := client.post outcome payload
    transcript.requests = List.replicate (scaleLimit + 1) (client.request payload) ∧
      transcript.result = .error .pauseOverflow := by
  intro transcript
  rcases postFrom_passing (Json.render .spaced payload) 1 (client.attempts.toNat - scaleLimit - 1)
      scaleLimit
      (fun index _ => unanswered.passing _)
      (fun index before => paced.isSome_pauseAfter (by omega)) with ⟨pauses, log, -, onward⟩
  have more : (client.attempts.toNat - scaleLimit - 1 == 0) = false := by
    rw [beq_eq_false_iff_ne]
    omega
  have count : scaleLimit + (client.attempts.toNat - scaleLimit - 1 + 1) =
      client.attempts.toNat := by omega
  rcases following_eq_goOn client (client.request payload) (1 + scaleLimit)
    (unanswered.passing (1 + scaleLimit)) with ⟨trouble, goesOn⟩
  have broken : ∀ rest, client.following (client.request payload) (1 + scaleLimit) false
      (outcome (1 + scaleLimit)) rest =
        finish (client.request payload) (.error .pauseOverflow) [] := fun rest => by
    rw [goesOn, goOn_of_overflow trouble rest (paced.pauseAfter_eq_none (by omega))]
  have whole : transcript = ⟨List.replicate (scaleLimit + 1) (client.request payload), pauses,
      log, .error .pauseOverflow⟩ := by
    rw [show transcript = _ from post_of_writable unanswered.writable, ← count, onward,
      postFrom_succ, more, ← request, broken, List.replicate_succ']
    simp [finish, request]
  rw [whole]
  exact ⟨rfl, rfl⟩

end WorkspaceGraph.Client

namespace WorkspaceGraph.CommandLine.IngestCommand

/-! ## Seconds -/

/-- A positive number of milliseconds is a positive number of seconds, even after rounding. -/
theorem isPositive_of_seconds? {milliseconds : Int} {number : Binary64} (some : 1 ≤ milliseconds)
    (read : seconds? milliseconds = .some (.real number)) : number.IsPositive := by
  rw [seconds?, decide_eq_false (by omega)] at read
  have least : (2 : ℚ) ^ (53 + Binary64.leastExponent) ≤ milliseconds.natAbs / (1000 : Nat) := by
    have count : (1 : ℚ) ≤ milliseconds.natAbs := by
      exact_mod_cast (by omega : 1 ≤ milliseconds.natAbs)
    calc (2 : ℚ) ^ (53 + Binary64.leastExponent)
        ≤ 2 ^ (-10 : ℤ) := zpow_le_zpow_right₀ one_le_two (by decide)
      _ ≤ 1 / (1000 : Nat) := by norm_num
      _ ≤ milliseconds.natAbs / (1000 : Nat) := by gcongr
  split at read
  · cases read
  · rename_i finite
    cases read
    exact Binary64.isPositive_ofFraction (by decide) least (finite false)

end WorkspaceGraph.CommandLine.IngestCommand

namespace WorkspaceGraph.Client

open CommandLine (IngestCommand)

/-! ## All pauses -/

/-- Between positive numbers the pauses are as long as they have to be and never get shorter, up to
the attempt whose factor has no floating-point number; from then on there is none. So posting
without a final answer ends with the error that names the last attempt, unless there are more
attempts than that. -/
theorem pauses_due (client : Client) (initial greatest : Binary64)
    (paced : client.Paced initial greatest) :
    (∀ attempt ≤ scaleLimit, ∃ pause, IsDue initial greatest attempt pause ∧
      client.pauseAfter attempt = some (.real pause)) ∧
    (∀ attempt, scaleLimit < attempt → client.pauseAfter attempt = none) ∧
    (∀ earlier later pause laterPause, earlier ≤ later →
      client.pauseAfter earlier = some (.real pause) →
      client.pauseAfter later = some (.real laterPause) → pause.value ≤ laterPause.value) ∧
    (∀ outcome payload, client.isUsable = true → client.Unanswered outcome payload →
      let transcript := client.post outcome payload
      (client.attempts ≤ scaleLimit + 1 → ∃ trouble, transcript.result =
        .error (.rejected (client.label client.attempts.toNat ++ trouble))) ∧
      (scaleLimit + 1 < client.attempts → transcript.sent = scaleLimit + 1 ∧
        transcript.result = .error .pauseOverflow)) := by
  refine ⟨fun attempt => paced.exists_pauseAfter, fun attempt => paced.pauseAfter_eq_none, ?_, ?_⟩
  · intro earlier later pause laterPause order paused laterPaused
    rw [paced.value_eq paused, paced.value_eq laterPaused]
    exact min_le_min_right _ (grown_le_grown paced.initialPositive order)
  · intro outcome payload usable unanswered transcript
    refine ⟨fun within => (unanswered.post_rejected usable paced within).2, fun beyond => ?_⟩
    rcases unanswered.post_overflow paced beyond with ⟨requests, result⟩
    exact ⟨by rw [Transcript.sent, requests, List.length_replicate], result⟩

theorem patient_paced : patient.Paced (.ofFraction false 2 1) (.ofFraction false 15 1) where
  initial_eq := rfl
  greatest_eq := rfl
  initialPositive := IngestCommand.isPositive_of_seconds? (by decide : (1 : Int) ≤ 2000)
    (by decide +kernel)
  greatestPositive := IngestCommand.isPositive_of_seconds? (by decide : (1 : Int) ≤ 15000)
    (by decide +kernel)

theorem pauses_due_patient :
    patient.Paced (.ofFraction false 2 1) (.ofFraction false 15 1) ∧
    (∀ attempt ≤ scaleLimit, ∃ pause,
      IsDue (.ofFraction false 2 1) (.ofFraction false 15 1) attempt pause ∧
        patient.pauseAfter attempt = some (.real pause)) ∧
    ∃ trouble, (patient.post (fun _ => .answer 503 "") .null).result =
      .error (.rejected (patient.label 4 ++ trouble)) := by
  rcases pauses_due patient _ _ patient_paced with ⟨due, -, -, ends⟩
  have unanswered : patient.Unanswered (fun _ => .answer 503 "") .null := ⟨rfl, fun _ => rfl⟩
  exact ⟨patient_paced, due, (ends _ _ rfl unanswered).1 (by decide)⟩

def unending : Client := { patient with attempts := 1026 }

/-- After 1025 answers that say to come back later posting breaks off instead of pausing for fifteen
seconds, with one more attempt left. -/
theorem post_unending :
    unending.Paced (.ofFraction false 2 1) (.ofFraction false 15 1) ∧
    unending.isUsable = true ∧ unending.Unanswered (fun _ => .answer 503 "") .null ∧
    unending.pauseAfter 1024 = some (.real (.ofFraction false 15 1)) ∧
    unending.pauseAfter 1025 = none ∧
    (unending.post (fun _ => .answer 503 "") .null).result = .error .pauseOverflow := by
  have paced : unending.Paced (.ofFraction false 2 1) (.ofFraction false 15 1) :=
    ⟨rfl, rfl, patient_paced.initialPositive, patient_paced.greatestPositive⟩
  have unanswered : unending.Unanswered (fun _ => .answer 503 "") .null := ⟨rfl, fun _ => rfl⟩
  exact ⟨paced, rfl, unanswered, by decide +kernel, paced.pauseAfter_eq_none (by decide),
    (unanswered.post_overflow paced (by decide)).2⟩

end WorkspaceGraph.Client
