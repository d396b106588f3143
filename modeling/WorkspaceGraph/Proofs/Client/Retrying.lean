import Mathlib.Order.Nat
import WorkspaceGraph.Proofs.Client.Posting
/-!
How posting ends. The attempts go on while requests are lost or are told to come back later, and the
last one is the first whose request is not, or the one after which there are none left. All attempts
send the same request, a pause stands before each but the first, and only the last one decides what
comes of posting.
-/

namespace WorkspaceGraph.Client

variable {client : Client} {body : String} {outcome : Nat → Outcome} {attempt left : Nat}
  {ending : Outcome} {request : Sent} {payload : Json}

def Outcome.isPassing : Outcome → Bool
  | .lost .. => true
  | .answer status _ => isTransient status
  | .broken .. => false

def pauseAfter (client : Client) (attempt : Nat) : Option Amount :=
  pause? attempt client.initialPause client.greatestPause

def verdict (client : Client) (attempt : Nat) : Outcome → Except PostError Response
  | .broken kind message => .error (.broken kind message)
  | .lost kind message => .error (.rejected (client.label attempt ++ (kind ++ ": " ++ message)))
  | .answer status text =>
      if isAccepted status then .ok ⟨status, text⟩
      else .error (.rejected (client.label attempt ++ "HTTP " ++ toString status ++
        " from scanner ingestion endpoint: " ++ summarize text))

/-! ## One attempt -/

theorem not_isAccepted_of_isTransient {status : Nat} (transient : isTransient status = true) :
    isAccepted status = false := by
  cases accepted : isAccepted status with
  | false => rfl
  | true =>
      rw [isAccepted, Bool.or_eq_true, beq_iff_eq, beq_iff_eq] at accepted
      rcases accepted with rfl | rfl <;> exact absurd transient (by decide)

theorem goOn_of_pauseAfter {pause : Amount} (request : Sent) (trouble : String)
    (paused : client.pauseAfter attempt = some pause) :
    ∃ entry, ∀ rest, client.goOn request attempt trouble rest = rest.later request pause entry := by
  rw [pauseAfter] at paused
  simp only [goOn, paused]
  exact ⟨_, fun _ => rfl⟩

theorem goOn_of_overflow (trouble : String) (rest : Transcript)
    (overflow : client.pauseAfter attempt = none) :
    client.goOn request attempt trouble rest = finish request (.error .pauseOverflow) [] := by
  rw [pauseAfter] at overflow
  simp only [goOn, overflow]

theorem following_eq_goOn (client : Client) (request : Sent) (attempt : Nat)
    (passing : ending.isPassing = true) :
    ∃ trouble, ∀ rest, client.following request attempt false ending rest =
      client.goOn request attempt trouble rest := by
  cases ending with
  | broken kind message => cases passing
  | lost kind message => exact ⟨kind ++ ": " ++ message, fun _ => rfl⟩
  | answer status text =>
      have transient : isTransient status = true := passing
      have refused := not_isAccepted_of_isTransient transient
      refine ⟨"Transient HTTP " ++ toString status, fun rest => ?_⟩
      simp [following, refused, transient]

theorem following_last (client : Client) (request : Sent) (attempt : Nat) {isLast : Bool}
    (last : isLast = true ∨ ending.isPassing = false) :
    ∃ log, ∀ rest, client.following request attempt isLast ending rest =
      finish request (client.verdict attempt ending) log := by
  cases ending with
  | broken kind message => exact ⟨[], fun _ => rfl⟩
  | lost kind message =>
      have noMore : isLast = true := last.resolve_right (by simp [Outcome.isPassing])
      exact ⟨[], fun rest => by simp [following, verdict, noMore]⟩
  | answer status text =>
      by_cases accepted : isAccepted status = true
      · exact ⟨_, fun rest => by simp only [following, verdict, accepted, if_true]; rfl⟩
      · have final : (!isTransient status || isLast) = true := by
          rcases last with noMore | settled
          · simp [noMore]
          · have settled : isTransient status = false := settled
            simp [settled]
        exact ⟨[], fun rest => by simp [following, verdict, accepted, final]⟩

/-! ## Attempts one after another -/

theorem postFrom_passing (body : String) (attempt left count : Nat)
    (passing : ∀ index < count, (outcome (attempt + index)).isPassing = true)
    (paused : ∀ index < count, (client.pauseAfter (attempt + index)).isSome = true) :
    ∃ pauses log, pauses.map some = (List.range' attempt count).map client.pauseAfter ∧
      client.postFrom body outcome attempt (count + (left + 1)) =
        let rest := client.postFrom body outcome (attempt + count) (left + 1)
        ⟨List.replicate count (client.requestOf body) ++ rest.requests, pauses ++ rest.pauses,
          log ++ rest.log, rest.result⟩ := by
  -- By induction on the attempts that pass; the rest is the same for all of them.
  induction count generalizing attempt with
  | zero =>
      refine ⟨[], [], rfl, ?_⟩
      rw [Nat.zero_add]
      rfl
  | succ count induction =>
      have first : (outcome attempt).isPassing = true := passing 0 (Nat.succ_pos _)
      have shift : ∀ index, attempt + 1 + index = attempt + (index + 1) := fun index => by omega
      have begun : (client.pauseAfter attempt).isSome = true := paused 0 (Nat.succ_pos _)
      rcases Option.isSome_iff_exists.mp begun with ⟨pause, due⟩
      rcases induction (attempt + 1)
          (fun index before => by rw [shift]; exact passing _ (Nat.succ_lt_succ before))
          (fun index before => by rw [shift]; exact paused _ (Nat.succ_lt_succ before)) with
        ⟨pauses, log, due_eq, onward⟩
      rcases following_eq_goOn client (client.requestOf body) attempt first with
        ⟨trouble, goesOn⟩
      rcases goOn_of_pauseAfter (client.requestOf body) trouble due with ⟨entry, pausing⟩
      refine ⟨pause :: pauses, entry :: log, ?_, ?_⟩
      · rw [List.map_cons, due_eq, List.range'_succ, List.map_cons, ← due]
      · have more : (count + (left + 1) == 0) = false := by simp
        rw [Nat.add_right_comm count 1, postFrom_succ, more, goesOn, pausing, onward,
          Nat.add_right_comm attempt 1 count]
        rfl

/-- The attempt is the first after which there are none left or whose outcome is not passing, and
posting comes to its verdict. -/
theorem postFrom_last (body : String) (attempt left count : Nat)
    (passing : ∀ index < count, (outcome (attempt + index)).isPassing = true)
    (paused : ∀ index < count, (client.pauseAfter (attempt + index)).isSome = true)
    (last : left = 0 ∨ (outcome (attempt + count)).isPassing = false) :
    let transcript := client.postFrom body outcome attempt (count + (left + 1))
    transcript.requests = List.replicate (count + 1) (client.requestOf body) ∧
    transcript.pauses.map some = (List.range' attempt count).map client.pauseAfter ∧
    transcript.result = client.verdict (attempt + count) (outcome (attempt + count)) := by
  intro transcript
  rcases postFrom_passing body attempt left count passing paused with
    ⟨pauses, log, due, onward⟩
  rcases following_last client (client.requestOf body) (attempt + count)
    (last.imp_left fun none => beq_iff_eq.mpr none) with
    ⟨lastLog, verdict_eq⟩
  have whole : transcript = ⟨List.replicate (count + 1) (client.requestOf body), pauses,
      log ++ lastLog, client.verdict (attempt + count) (outcome (attempt + count))⟩ := by
    rw [show transcript = _ from onward, postFrom_succ, verdict_eq, List.replicate_succ']
    simp [finish]
  rw [whole]
  exact ⟨rfl, due, rfl⟩

/-! ## Posting -/

/-- Every request is answered or gets lost. One with a header that cannot be written is not even
sent, so nothing of the kind becomes of it. -/
structure Scripted (client : Client) (outcome : Nat → Outcome) (payload : Json) : Prop where
  writable : hasWritableHeader (client.request payload) = true
  unbroken : ∀ attempt kind message, outcome attempt ≠ .broken kind message

structure Stops (client : Client) (outcome : Nat → Outcome) (attempt : Nat) : Prop where
  begun : 1 ≤ attempt
  final : (attempt : Int) = client.attempts ∨ (outcome attempt).isPassing = false

theorem post_of_writable (writable : hasWritableHeader (client.request payload) = true) :
    client.post outcome payload =
      client.postFrom (Json.render .spaced payload) outcome 1 client.attempts.toNat :=
  if_pos writable

theorem post_last {last : Nat} (writable : hasWritableHeader (client.request payload) = true)
    (stops : client.Stops outcome last) (within : (last : Int) ≤ client.attempts)
    (passing : ∀ attempt, 1 ≤ attempt → attempt < last → (outcome attempt).isPassing = true)
    (paused : ∀ attempt, 1 ≤ attempt → attempt < last →
      (client.pauseAfter attempt).isSome = true) :
    let transcript := client.post outcome payload
    transcript.requests = List.replicate last (client.request payload) ∧
      transcript.pauses.map some = (List.range' 1 (last - 1)).map client.pauseAfter ∧
      transcript.result = client.verdict last (outcome last) := by
  have begun := stops.begun
  have place : 1 + (last - 1) = last := Nat.add_sub_cancel' begun
  have enough : last - 1 + (client.attempts.toNat - last + 1) = client.attempts.toNat := by omega
  have final : client.attempts.toNat - last = 0 ∨ (outcome (1 + (last - 1))).isPassing = false := by
    rw [place]
    exact stops.final.imp_left fun none => by omega
  have told := postFrom_last (Json.render .spaced payload) 1 (client.attempts.toNat - last)
    (last - 1)
    (fun index before => passing (1 + index) (by omega) (by omega))
    (fun index before => paused (1 + index) (by omega) (by omega)) final
  rwa [enough, place, Nat.sub_add_cancel begun, ← post_of_writable writable] at told

/-- There is a last attempt, and it is one of those that the client makes. -/
theorem exists_isLeast_stops (outcome : Nat → Outcome) (usable : client.isUsable = true) :
    ∃ last, IsLeast {attempt | client.Stops outcome attempt} last ∧
      (last : Int) ≤ client.attempts := by
  classical
  have usable : 1 ≤ client.attempts := of_decide_eq_true usable
  have stops : client.Stops outcome client.attempts.toNat := ⟨by omega, .inl (by omega)⟩
  have least := Nat.isLeast_find ⟨_, stops⟩
  have bound := least.2 stops
  exact ⟨_, least, by omega⟩

theorem isPassing_of_isLeast {last : Nat}
    (least : IsLeast {attempt | client.Stops outcome attempt} last) (attempt : Nat)
    (begun : 1 ≤ attempt) (before : attempt < last) : (outcome attempt).isPassing = true := by
  cases passing : (outcome attempt).isPassing with
  | true => rfl
  | false => exact absurd (least.2 ⟨begun, .inr passing⟩) (Nat.not_le_of_lt before)

theorem verdict_eq_ok_iff {response : Response} : client.verdict attempt ending = .ok response ↔
    ending = .answer response.status response.text ∧
      (response.status = 200 ∨ response.status = 202) := by
  cases ending with
  | broken kind message => simp [verdict]
  | lost kind message => simp [verdict]
  | answer status text =>
      have accepted : isAccepted status = true ↔ status = 200 ∨ status = 202 := by
        rw [isAccepted, Bool.or_eq_true, beq_iff_eq, beq_iff_eq]
      rw [verdict]
      split
      · rename_i taken
        constructor
        · intro same
          cases same
          exact ⟨rfl, accepted.mp taken⟩
        · rintro ⟨same, -⟩
          cases same
          rfl
      · rename_i refused
        refine ⟨nofun, ?_⟩
        rintro ⟨same, taken⟩
        cases same
        exact absurd (accepted.mpr taken) refused

theorem verdict_eq_error {error : PostError}
    (unbroken : ∀ kind message, ending ≠ .broken kind message)
    (failed : client.verdict attempt ending = .error error) :
    ∃ trouble, error = .rejected (client.label attempt ++ trouble) := by
  cases ending with
  | broken kind message => exact absurd rfl (unbroken kind message)
  | lost kind message =>
      cases failed
      exact ⟨_, rfl⟩
  | answer status text =>
      rw [verdict] at failed
      split at failed
      · cases failed
      · cases failed
        rw [String.append_assoc, String.append_assoc, String.append_assoc]
        exact ⟨_, rfl⟩

theorem rejected_ne_exhausted (client : Client) (attempt : Nat) (trouble : String) :
    PostError.rejected (client.label attempt ++ trouble) ≠ exhausted := by
  intro same
  have texts := congrArg String.toList (PostError.rejected.inj same)
  simp [label] at texts

/-- Posting makes attempts up to the first that is neither lost nor told to come back later, and at
most as many as there are. Each sends the same request, and between two of them stands the pause
that is due. The last one decides: posting gives its response if that is a success, and an error
that names it otherwise. The error for attempts without end never comes up. -/
theorem post_attempts (client : Client) (outcome : Nat → Outcome) (payload : Json)
    (usable : client.isUsable = true) (scripted : client.Scripted outcome payload)
    (paused : ∀ attempt : Nat, 1 ≤ attempt → (attempt : Int) < client.attempts →
      (client.pauseAfter attempt).isSome = true) :
    let transcript := client.post outcome payload
    ∃ last, IsLeast {attempt | client.Stops outcome attempt} last ∧
      transcript.requests = List.replicate last (client.request payload) ∧
      transcript.pauses.map some = (List.range' 1 (last - 1)).map client.pauseAfter ∧
      (∀ response, transcript.result = .ok response ↔
        outcome last = .answer response.status response.text ∧
          (response.status = 200 ∨ response.status = 202)) ∧
      (∀ error, transcript.result = .error error →
        ∃ trouble, error = .rejected (client.label last ++ trouble)) ∧
      transcript.result ≠ .error exhausted := by
  intro transcript
  rcases exists_isLeast_stops outcome usable with ⟨last, least, within⟩
  rcases post_last scripted.writable least.1 within (isPassing_of_isLeast least)
    (fun attempt begun before => paused attempt begun (by omega)) with ⟨requests, pauses, result⟩
  have named : ∀ error, transcript.result = .error error →
      ∃ trouble, error = .rejected (client.label last ++ trouble) := fun error failed =>
    verdict_eq_error (scripted.unbroken last) (result.symm.trans failed)
  refine ⟨last, least, requests, pauses, fun response => ?_, named, fun failed => ?_⟩
  · rw [result]
    exact verdict_eq_ok_iff
  · rcases named exhausted failed with ⟨trouble, same⟩
    exact rejected_ne_exhausted client last trouble same.symm

def patient : Client where
  url := "http://localhost/ingest"
  token := none
  timeout := .whole 30
  attempts := 4
  initialPause := .real (.ofFraction false 2 1)
  greatestPause := .real (.ofFraction false 15 1)

def recovering : Nat → Outcome
  | 1 => .answer 503 ""
  | 2 => .lost "ConnectError" "connection refused"
  | _ => .answer 200 "done"

theorem post_attempts_recovering :
    patient.isUsable = true ∧ patient.Scripted recovering .null ∧
    (∀ attempt : Nat, 1 ≤ attempt → (attempt : Int) < patient.attempts →
      (patient.pauseAfter attempt).isSome = true) ∧
    ∃ last, IsLeast {attempt | patient.Stops recovering attempt} last ∧
      (patient.post recovering .null).requests = List.replicate last (patient.request .null) ∧
      (patient.post recovering .null).pauses.map some =
        (List.range' 1 (last - 1)).map patient.pauseAfter := by
  have scripted : patient.Scripted recovering .null := by
    refine ⟨rfl, fun attempt kind message same => ?_⟩
    match attempt with
    | 0 | 1 | 2 | _ + 3 => cases same
  have paused : ∀ attempt : Nat, 1 ≤ attempt → (attempt : Int) < patient.attempts →
      (patient.pauseAfter attempt).isSome = true := by
    intro attempt begun before
    have bound : (attempt : Int) < 4 := before
    have listed : attempt = 1 ∨ attempt = 2 ∨ attempt = 3 := by omega
    rcases listed with rfl | rfl | rfl <;> rfl
  rcases post_attempts patient recovering .null rfl scripted paused with
    ⟨last, least, requests, pauses, -⟩
  exact ⟨rfl, scripted, paused, last, least, requests, pauses⟩

/-- The pauses before the second and the third attempt. -/
example : (patient.post recovering .null).pauses =
    [.real (.ofFraction false 2 1), .real (.ofFraction false 4 1)] := by decide +kernel

end WorkspaceGraph.Client
