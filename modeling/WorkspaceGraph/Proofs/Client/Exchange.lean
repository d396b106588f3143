import WorkspaceGraph.Proofs.Api.Submissions
import WorkspaceGraph.Proofs.Client.Posting
import WorkspaceGraph.Proofs.Interleaving.Uninterrupted
/-!
A client that posts a payload to the service over a network, while others submit under other keys
what they have. A request may get lost or be late, and so may its response. A request that has come
in is served by a worker of its own, which works on when the client waits for it no longer and has
sent the next one.
-/

namespace WorkspaceGraph

structure Exchange where
  client : Client
  payload : Json
  limits : Limits
  naming : Naming

namespace Exchange

def call (exchange : Exchange) : Api.Call where
  method := Api.Route.ingest.method
  target := ⟨Api.Route.ingest.path, []⟩
  body := Text.Utf8.encode (exchange.client.request exchange.payload).body

def submission? (exchange : Exchange) : Option Submission :=
  exchange.call.submission? exchange.limits

def response (exchange : Exchange) (answer : Api.Answer) : Client.Response :=
  ⟨answer.status, Json.render .compact (answer.body.toJson exchange.naming)⟩

/-! ## States -/

inductive Reception
  | served (number : Nat)
  | turnedAway (answer : Api.Answer)

structure State where
  system : System
  /-- What has become of an attempt's request, if it came in. -/
  received : Nat → Option Reception
  /-- How the attempts have ended that are over, in order. -/
  endings : List Client.Outcome

namespace State

def initial : State := ⟨.initial, fun _ => none, []⟩

def receive (state : State) (attempt : Nat) (reception : Reception) : State :=
  { state with
    received := fun other => if other = attempt then some reception else state.received other }

def conclude (state : State) (ending : Client.Outcome) : State :=
  { state with endings := state.endings ++ [ending] }

/-- How an attempt has ended. One that is not over counts as broken off, since nothing more is sent
before it is. -/
def outcome (state : State) (attempt : Nat) : Client.Outcome :=
  (state.endings[attempt - 1]?).getD (.broken "" "")

end State

variable (exchange : Exchange) (state : Exchange.State)

def transcript : Client.Transcript := exchange.client.post state.outcome exchange.payload

def waits : Bool := state.endings.length < (exchange.transcript state).sent

def returned? : Option (Except Client.PostError Client.Response) :=
  if exchange.waits state then none else some (exchange.transcript state).result

def response? (attempt : Nat) : Option Client.Response :=
  match state.received attempt with
  | none => none
  | some (.turnedAway answer) => some (exchange.response answer)
  | some (.served number) =>
      match state.system.workers number with
      | some ⟨_, _, .answered result⟩ => some (exchange.response (Api.answerOf result))
      | _ => none

/-! ## What happens -/

inductive Incident
  /-- Something happens in the service, to the requests of the client or to those of others. -/
  | service (event : Event)
  /-- An attempt's request comes in, now or later, and gets a worker. -/
  | arrival (attempt number : Nat) (now : Instant)
  /-- The client gets the response that it waits for. -/
  | response
  /-- It gets none and waits no longer. -/
  | silence (kind message : String)

/-- Whether an event may happen in the service: whoever else comes in has another key. -/
def admits : Event → Bool
  | .arrival _ _ submission => exchange.submission?.all fun own => submission.key ≠ own.key
  | .turn .. | .loss _ => true

/-- A request comes in. It is answered at once if there is no submission in it. -/
def arrive (attempt number : Nat) (now : Instant) : State :=
  match exchange.submission? with
  | none =>
      let served := Api.respond exchange.limits now exchange.call ⟨state.system.store, .none, []⟩
      state.receive attempt (.turnedAway served.1)
  | some submission =>
      match state.system.workers number with
      | some _ => state
      | none =>
          let system := state.system.step (.arrival number exchange.limits submission)
          { state with system }.receive attempt (.served number)

def step : Incident → State
  | .service event =>
      if exchange.admits event then { state with system := state.system.step event } else state
  | .arrival attempt number now =>
      if 1 ≤ attempt && attempt ≤ (exchange.transcript state).sent &&
          (state.received attempt).isNone then exchange.arrive state attempt number now
      else state
  | .response =>
      match exchange.waits state, exchange.response? state (state.endings.length + 1) with
      | true, some response => state.conclude (.answer response.status response.text)
      | _, _ => state
  | .silence kind message =>
      if exchange.waits state then state.conclude (.lost kind message) else state

def run (incidents : List Incident) : State := incidents.foldl exchange.step state

def after (exchange : Exchange) (incidents : List Incident) : State :=
  exchange.run .initial incidents

variable {exchange state}

theorem call_submits (exchange : Exchange) : exchange.call.Submits := ⟨rfl, rfl⟩

inductive Change (exchange : Exchange) (state : State) : State → Prop
  | nothing : Change exchange state state
  | elsewhere (event : Event) : exchange.admits event →
      Change exchange state { state with system := state.system.step event }
  | served (attempt number : Nat) (submission : Submission) : state.received attempt = none →
      exchange.submission? = some submission → state.system.workers number = none →
      Change exchange state ({ state with
        system := state.system.step (.arrival number exchange.limits submission) }.receive attempt
          (.served number))
  | turnedAway (attempt : Nat) (answer : Api.Answer) : state.received attempt = none →
      answer.status = 400 → Change exchange state (state.receive attempt (.turnedAway answer))
  | heard (response : Client.Response) :
      exchange.response? state (state.endings.length + 1) = some response →
      Change exchange state (state.conclude (.answer response.status response.text))
  | unheard (kind message : String) :
      Change exchange state (state.conclude (.lost kind message))

theorem change_arrive {attempt : Nat} (new : state.received attempt = none) (number : Nat)
    (now : Instant) : exchange.Change state (exchange.arrive state attempt number now) := by
  rw [arrive]
  cases brought : exchange.submission? with
  | none =>
      rcases Api.respond_turned_away exchange.call_submits brought with ⟨answer, status, same⟩
      rcases same now ⟨state.system.store, .none, []⟩ with ⟨noted, served⟩
      dsimp only
      rw [served]
      exact .turnedAway attempt answer new status
  | some submission =>
      cases free : state.system.workers number with
      | some worker => exact .nothing
      | none => exact .served attempt number submission new brought free

theorem change_step (exchange : Exchange) (state : State) (incident : Incident) :
    exchange.Change state (exchange.step state incident) := by
  cases incident with
  | service event =>
      rw [step]
      split
      · exact .elsewhere event ‹_›
      · exact .nothing
  | arrival attempt number now =>
      rw [step]
      split
      · rename_i due
        simp only [Bool.and_eq_true, decide_eq_true_eq, Option.isNone_iff_eq_none] at due
        exact change_arrive due.2 number now
      · exact .nothing
  | response =>
      rw [step]
      split
      · exact .heard _ ‹_›
      · exact .nothing
  | silence kind message =>
      rw [step]
      split
      · exact .unheard kind message
      · exact .nothing

/-! ## The client -/

theorem outcome_of_ended {index : Nat} {ending : Client.Outcome}
    (ended : state.endings[index]? = some ending) : state.outcome (index + 1) = ending := by
  rw [State.outcome, Nat.add_sub_cancel, ended, Option.getD_some]

theorem waits_congr {other : State} (same : state.endings = other.endings) :
    exchange.waits state = exchange.waits other := by
  have outcomes : state.outcome = other.outcome := by
    funext attempt
    rw [State.outcome, same, State.outcome]
  rw [waits, transcript, same, outcomes, waits, transcript]

theorem returned?_response (waits : exchange.waits state) {response : Client.Response}
    (is : exchange.response? state (state.endings.length + 1) = some response)
    (accepted : Client.isAccepted response.status) :
    exchange.returned? (exchange.step state .response) = some (.ok response) := by
  let last := state.conclude (.answer response.status response.text)
  have next : exchange.step state .response = last := by
    simp only [step, waits, is, last]
  have reached : state.endings.length < (exchange.transcript state).sent := by
    simpa [Exchange.waits] using waits
  have concluded : (exchange.transcript last).sent = state.endings.length + 1 ∧
      (exchange.transcript last).result = .ok response := by
    refine Client.post_accepted accepted reached (fun earlier before => ?_) (outcome_of_ended ?_)
    · have ending := List.getElem?_eq_getElem before
      rw [outcome_of_ended ending]
      exact outcome_of_ended ((List.getElem?_append_left before).trans ending)
    · exact List.getElem?_concat_length
  have finished : exchange.waits last = false := by
    rw [Exchange.waits, concluded.1]
    simp [last, State.conclude]
  rw [next, returned?, finished, concluded.2]
  rfl

/-! ## The service in one go -/

theorem run_turns (number : Nat) (turns : List Circumstances) :
    exchange.run state (turns.map fun turn => .service (.turn number turn)) =
      { state with system := state.system.run (turns.map (Event.turn number)) } := by
  induction turns generalizing state with
  | nil => rfl
  | cons turn turns induction => exact induction

/-- Whatever the service answers in one go to a request that comes in can be the response to it, if
only its own worker has turns from then on. -/
theorem response_alone {attempt : Nat} (begun : 1 ≤ attempt)
    (sent : attempt ≤ (exchange.transcript state).sent) (new : state.received attempt = none)
    {number : Nat} (free : state.system.workers number = none) (now : Instant) (faults : Faults)
    (log : List Log.Entry) :
    ∃ turns : List Circumstances,
      let served := Api.respond exchange.limits now exchange.call ⟨state.system.store, faults, log⟩
      let final := exchange.run state
        (.arrival attempt number now :: turns.map fun turn => .service (.turn number turn))
      final.system.store = served.2.store ∧ final.endings = state.endings ∧
        exchange.response? final attempt = some (exchange.response served.1) := by
  have arrived : exchange.step state (.arrival attempt number now) =
      exchange.arrive state attempt number now := by
    simp [step, begun, sent, new]
  cases brought : exchange.submission? with
  | none =>
      rcases Api.respond_turned_away exchange.call_submits brought with ⟨answer, -, same⟩
      rcases same now ⟨state.system.store, faults, log⟩ with ⟨noted, served⟩
      rcases same now ⟨state.system.store, .none, []⟩ with ⟨others, calm⟩
      refine ⟨[], ?_⟩
      simp only [List.map_nil, run, List.foldl_cons, List.foldl_nil, arrived, arrive, brought,
        served, calm]
      exact ⟨rfl, rfl, by simp [response?, State.receive]⟩
  | some submission =>
      rcases state.system.run_turns free exchange.limits now submission faults log with
        ⟨turns, -, store, answered⟩
      generalize result : (Service.ingestSubmission exchange.limits now submission).outcome
        ⟨state.system.store, faults, log⟩ = served at store answered
      rcases served with ⟨result, left⟩
      rcases Api.respond_submission exchange.call_submits brought now result with ⟨noted, same⟩
      have final : exchange.run state
          (.arrival attempt number now :: turns.map fun turn => .service (.turn number turn)) =
          { state with
            system := state.system.run (.arrival number exchange.limits submission ::
              turns.map (Event.turn number)) }.receive attempt (.served number) := by
        simp only [run, List.foldl_cons, arrived, arrive, brought, free]
        exact run_turns number turns
      refine ⟨turns, ?_⟩
      dsimp only
      rw [same, final]
      refine ⟨store, rfl, ?_⟩
      simp [response?, State.receive, answered]

end Exchange

end WorkspaceGraph
