import WorkspaceGraph.Client.Post
/-!
Attempts to post a payload, one after another. After every attempt posting is over or goes on with
the next one, so that what comes of it depends on the requests that are sent and on nothing else.
-/

namespace WorkspaceGraph.Client

variable {client : Client} {body : String} {outcome other : Nat → Outcome} {attempt left : Nat}

/-- What is done from an attempt on that ends in a way, given what would be done after it. -/
def following (client : Client) (request : Sent) (attempt : Nat) (isLast : Bool) (ending : Outcome)
    (rest : Transcript) : Transcript :=
  let name := client.label attempt
  match ending with
  | .broken kind message => finish request (.error (.broken kind message)) []
  | .lost kind message =>
      let trouble := kind ++ ": " ++ message
      if isLast then finish request (.error (.rejected (name ++ trouble))) []
      else client.goOn request attempt trouble rest
  | .answer status text =>
      if isAccepted status then
        finish request (.ok ⟨status, text⟩) [.plain .info
          (name ++ "Completed with HTTP " ++ toString status ++ ": " ++ summarize text)]
      else if !isTransient status || isLast then
        finish request (.error (.rejected (name ++ "HTTP " ++ toString status ++
          " from scanner ingestion endpoint: " ++ summarize text))) []
      else client.goOn request attempt ("Transient HTTP " ++ toString status) rest

theorem postFrom_succ (client : Client) (body : String) (outcome : Nat → Outcome) (attempt left : Nat) :
    client.postFrom body outcome attempt (left + 1) =
      client.following (client.requestOf body) attempt (left == 0) (outcome attempt)
        (client.postFrom body outcome (attempt + 1) left) := by
  rw [postFrom]
  rfl

structure Ends (ending : Outcome) (transcript : Transcript) : Prop where
  sent : transcript.sent = 1
  answered : ∀ response, transcript.result = .ok response →
    ending = .answer response.status response.text

theorem Ends.of_error {ending : Outcome} (request : Sent) (error : PostError)
    (log : List Log.Entry) : Ends ending (finish request (.error error) log) where
  sent := rfl
  answered := by
    intro response success
    cases success

/-- Posting is over whatever would be done after the attempt, or it goes on with just that. -/
def Decided (ending : Outcome) (next : Transcript → Transcript) : Prop :=
  (∃ transcript, Ends ending transcript ∧ ∀ rest, next rest = transcript) ∨
    ∃ request pause entry, ∀ rest, next rest = rest.later request pause entry

theorem goOn_decided (client : Client) (request : Sent) (attempt : Nat) (trouble : String)
    (ending : Outcome) : Decided ending (client.goOn request attempt trouble) := by
  unfold goOn
  cases pause? attempt client.initialPause client.greatestPause with
  | none => exact .inl ⟨_, .of_error request .pauseOverflow [], fun _ => rfl⟩
  | some pause => exact .inr ⟨request, pause, _, fun _ => rfl⟩

theorem following_decided (client : Client) (request : Sent) (attempt : Nat) (isLast : Bool)
    (ending : Outcome) : Decided ending (client.following request attempt isLast ending) := by
  cases ending with
  | broken kind message => exact .inl ⟨_, .of_error request (.broken kind message) [], fun _ => rfl⟩
  | lost kind message =>
      cases isLast with
      | false => exact client.goOn_decided request attempt _ _
      | true => exact .inl ⟨_, .of_error request _ [], fun _ => rfl⟩
  | answer status text =>
      unfold following
      by_cases accepted : isAccepted status
      · simp only [accepted, if_true]
        refine .inl ⟨_, ⟨rfl, fun response success => ?_⟩, fun _ => rfl⟩
        cases success
        rfl
      · simp only [accepted, Bool.false_eq_true, if_false]
        by_cases final : !isTransient status || isLast
        · simp only [final, if_true]
          exact .inl ⟨_, .of_error request _ [], fun _ => rfl⟩
        · simp only [final]
          exact client.goOn_decided request attempt _ _

/-! ## Whole runs -/

theorem postFrom_ok {response : Response}
    (success : (client.postFrom body outcome attempt left).result = .ok response) :
    ∃ later, attempt ≤ later ∧ outcome later = .answer response.status response.text := by
  induction left generalizing attempt with
  | zero => cases success
  | succ left induction =>
      rw [postFrom_succ] at success
      rcases client.following_decided _ attempt (left == 0) (outcome attempt) with
        ⟨transcript, ends, finished⟩ | ⟨request, pause, entry, goesOn⟩
      · rw [finished] at success
        exact ⟨attempt, Nat.le_refl _, ends.answered response success⟩
      · rw [goesOn] at success
        rcases induction success with ⟨later, after, answered⟩
        exact ⟨later, by omega, answered⟩

theorem postFrom_accepted {status : Nat} {text : String} (accepted : isAccepted status)
    {index : Nat} (reached : index < (client.postFrom body outcome attempt left).sent)
    (same : ∀ earlier, earlier < index → other (attempt + earlier) = outcome (attempt + earlier))
    (answered : other (attempt + index) = .answer status text) :
    (client.postFrom body other attempt left).sent = index + 1 ∧
      (client.postFrom body other attempt left).result = .ok ⟨status, text⟩ := by
  induction left generalizing attempt index with
  | zero => cases reached
  | succ left induction =>
      rw [postFrom_succ] at reached ⊢
      cases index with
      | zero =>
          rw [Nat.add_zero] at answered
          simp only [following, answered, accepted, if_true]
          exact ⟨rfl, rfl⟩
      | succ index =>
          have first : other attempt = outcome attempt := same 0 (Nat.succ_pos _)
          rw [first]
          rcases client.following_decided _ attempt (left == 0) (outcome attempt) with
            ⟨transcript, ends, finished⟩ | ⟨request, pause, entry, goesOn⟩
          · rw [finished, ends.sent] at reached
            omega
          · rw [goesOn] at reached ⊢
            have rest := induction (Nat.lt_of_succ_lt_succ reached) (fun earlier before => ?_) ?_
            · exact ⟨congrArg Nat.succ rest.1, rest.2⟩
            · rw [Nat.add_right_comm]
              exact same (earlier + 1) (Nat.succ_lt_succ before)
            · rw [Nat.add_right_comm]
              exact answered

theorem post_ok {payload : Json} {response : Response}
    (success : (client.post outcome payload).result = .ok response) :
    ∃ index, outcome (index + 1) = .answer response.status response.text := by
  rw [post] at success
  split at success
  · rcases postFrom_ok success with ⟨attempt, begun, answered⟩
    refine ⟨attempt - 1, ?_⟩
    rwa [Nat.sub_add_cancel begun]
  · cases success

theorem post_accepted {payload : Json} {status : Nat} {text : String} (accepted : isAccepted status)
    {index : Nat} (reached : index < (client.post outcome payload).sent)
    (same : ∀ earlier, earlier < index → other (earlier + 1) = outcome (earlier + 1))
    (answered : other (index + 1) = .answer status text) :
    (client.post other payload).sent = index + 1 ∧
      (client.post other payload).result = .ok ⟨status, text⟩ := by
  rw [post] at reached ⊢
  split
  · rename_i writable
    rw [if_pos writable] at reached
    refine postFrom_accepted accepted reached (fun earlier before => ?_) ?_
    · rw [Nat.add_comm]
      exact same earlier before
    · rwa [Nat.add_comm]
  · rename_i unwritable
    rw [if_neg unwritable] at reached
    cases reached

end WorkspaceGraph.Client
