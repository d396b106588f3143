import WorkspaceGraph.Proofs.Client.Exchange
import WorkspaceGraph.Proofs.Client.Transfer
import WorkspaceGraph.Proofs.Ingestion.Ledger
import WorkspaceGraph.Proofs.Interleaving.Regular
import WorkspaceGraph.Proofs.Interleaving.Sources
import WorkspaceGraph.Proofs.Json.RoundTrip
/-!
A payload takes effect once, however often its request is sent and comes in. All responses of
success tell of the same version, and there is no other one under the key.
-/

namespace WorkspaceGraph

/-! ## Responses of success -/

namespace Client.Response

def field? (response : Response) (name : String) : Option Json :=
  match Json.parse response.text with
  | .ok (.record fields) => Json.lookup name fields
  | _ => none

structure Names (response : Response) (naming : Naming) (version : Version) : Prop where
  run : response.field? "scanRunId" = some (.text (naming.run version.runId))
  id : response.field? "graphVersionId" = some (.text (naming.version version.id))
  number : response.field? "graphVersionNumber" = some (.int version.number)

end Client.Response

theorem Receipt.plain_toJson (naming : Naming) (receipt : Receipt) :
    Json.Plain (receipt.toJson naming) := by
  rw [toJson]
  cases receipt.linkage <;> simp [Linkage.fields, Json.DistinctNames, Json.nat]

theorem IngestionError.status_ne_ok (error : IngestionError) : error.status ≠ 200 := by
  rw [status]
  cases error.kind <;> decide

theorem Api.succeeded_of_answerOf {result : Except StoreError Receipt}
    (status : (answerOf result).status = 200) :
    ∃ receipt, result = .ok receipt ∧ receipt.status = .succeeded := by
  cases result with
  | ok receipt =>
      refine ⟨receipt, rfl, ?_⟩
      cases linkage : receipt.linkage with
      | none => simp [answerOf, Receipt.status, linkage] at status
      | some made => rw [Receipt.status, linkage]
  | error error =>
      cases error with
      | ingestion error => exact absurd status error.status_ne_ok
      | _ => cases status

namespace Exchange

variable {exchange : Exchange} {state : State}

theorem response_names {receipt : Receipt} {version : Version} (tells : receipt.Tells version) :
    (exchange.response (Api.answerOf (.ok receipt))).Names exchange.naming version := by
  have text : Json.parse (exchange.response (Api.answerOf (.ok receipt))).text =
      .ok (receipt.toJson exchange.naming) :=
    Json.parse_render Json.readable_compact (receipt.plain_toJson exchange.naming)
  constructor <;>
    simp [Client.Response.field?, text, Receipt.toJson, tells.linkage, tells.run, Linkage.fields,
      Json.lookup]

/-! ## At all times -/

/-- The requests that came in are served as what they are, only they have the payload's key, and
whatever the client got was the response to the request it had sent. -/
structure Kept (exchange : Exchange) (state : State) : Prop where
  reachable : ∃ events, state.system = System.after events
  served : ∀ attempt number, state.received attempt = some (.served number) →
    ∃ worker, state.system.workers number = some worker ∧
      exchange.submission? = some worker.submission
  turnedAway : ∀ attempt answer, state.received attempt = some (.turnedAway answer) →
    answer.status = 400
  alone : ∀ number worker own, state.system.workers number = some worker →
    exchange.submission? = some own → worker.submission.key = own.key → worker.submission = own
  endings : ∀ index status text, state.endings[index]? = some (.answer status text) →
    exchange.response? state (index + 1) = some ⟨status, text⟩

theorem Kept.initial : exchange.Kept .initial where
  reachable := ⟨[], rfl⟩
  served := by simp [State.initial]
  turnedAway := by simp [State.initial]
  alone := by simp [State.initial, System.initial]
  endings := by simp [State.initial]

theorem Kept.sound (kept : exchange.Kept state) : state.system.store.Sound := by
  rcases kept.reachable with ⟨events, reached⟩
  rw [reached]
  exact System.sound_after events

theorem response?_served {attempt number : Nat} {response : Client.Response}
    (isServed : state.received attempt = some (.served number))
    (is : exchange.response? state attempt = some response) :
    ∃ worker result, state.system.workers number = some worker ∧
      worker.stage = .answered result ∧ response = exchange.response (Api.answerOf result) := by
  simp only [response?, isServed] at is
  cases found : state.system.workers number with
  | none => simp [found] at is
  | some worker =>
      rcases worker with ⟨limits, submission, stage⟩
      cases stage with
      | answered result =>
          simp only [found, Option.some.injEq] at is
          exact ⟨_, result, rfl, rfl, is.symm⟩
      | _ => simp [found] at is

theorem Kept.response?_event (kept : exchange.Kept state) (event : Event) {attempt : Nat}
    {response : Client.Response} (is : exchange.response? state attempt = some response) :
    exchange.response? { state with system := state.system.step event } attempt =
      some response := by
  cases received : state.received attempt with
  | none => simp [response?, received] at is
  | some reception =>
      cases reception with
      | turnedAway answer => simpa [response?, received] using is
      | served number =>
          rcases response?_served received is with ⟨worker, result, found, answered, rfl⟩
          rcases (System.step_step kept.sound event).worker_stays found with ⟨stage, stays, same⟩
          simp [response?, received, stays, same result answered]

theorem response?_receive {attempt other : Nat} (new : state.received attempt = none)
    (reception : Reception) {response : Client.Response}
    (is : exchange.response? state other = some response) :
    exchange.response? (state.receive attempt reception) other = some response := by
  have different : other ≠ attempt := by
    intro same
    simp [response?, same, new] at is
  simpa [response?, State.receive, different] using is

namespace Kept

theorem event (kept : exchange.Kept state) {event : Event}
    (own : ∀ number limits submission submitted,
      event = .arrival number limits submission → exchange.submission? = some submitted →
      submission.key = submitted.key → submission = submitted) :
    exchange.Kept { state with system := state.system.step event } where
  reachable := System.reachable_step kept.reachable event
  served := by
    intro attempt number received
    rcases kept.served attempt number received with ⟨worker, found, brought⟩
    rcases (System.step_step kept.sound event).worker_stays found with ⟨stage, stays, -⟩
    exact ⟨_, stays, brought⟩
  turnedAway := kept.turnedAway
  alone := by
    intro number worker submitted found brought key
    rcases System.worker_of_step found with ⟨stage, was⟩ | ⟨limits, arrived⟩
    · exact kept.alone number { worker with stage } submitted was brought key
    · exact own number limits _ submitted arrived brought key
  endings := by
    intro index status text ended
    exact kept.response?_event event (kept.endings index status text ended)

theorem receive (kept : exchange.Kept state) {attempt : Nat} (new : state.received attempt = none)
    {reception : Reception}
    (served : ∀ number, reception = .served number → ∃ worker,
      state.system.workers number = some worker ∧ exchange.submission? = some worker.submission)
    (turnedAway : ∀ answer, reception = .turnedAway answer → answer.status = 400) :
    exchange.Kept (state.receive attempt reception) where
  reachable := kept.reachable
  served := by
    intro other number received
    simp only [State.receive] at received
    split at received
    · exact served number (Option.some.inj received)
    · exact kept.served other number received
  turnedAway := by
    intro other answer received
    simp only [State.receive] at received
    split at received
    · exact turnedAway answer (Option.some.inj received)
    · exact kept.turnedAway other answer received
  alone := kept.alone
  endings := by
    intro index status text ended
    exact response?_receive new reception (kept.endings index status text ended)

theorem conclude (kept : exchange.Kept state) {ending : Client.Outcome}
    (given : ∀ status text, ending = .answer status text →
      exchange.response? state (state.endings.length + 1) = some ⟨status, text⟩) :
    exchange.Kept (state.conclude ending) where
  reachable := kept.reachable
  served := kept.served
  turnedAway := kept.turnedAway
  alone := kept.alone
  endings := by
    intro index status text ended
    rw [State.conclude, List.getElem?_append] at ended
    split at ended
    · exact kept.endings index status text ended
    · rename_i after
      have last : index = state.endings.length := by
        have within := (List.getElem?_eq_some_iff.mp ended).1
        simp only [List.length_singleton] at within
        omega
      subst last
      exact given status text (by simpa using ended)

theorem change {next : State} (kept : exchange.Kept state) (change : exchange.Change state next) :
    exchange.Kept next := by
  cases change with
  | nothing => exact kept
  | elsewhere event admitted =>
      refine kept.event fun number limits submission submitted is brought key => ?_
      subst is
      simp only [admits, brought, Option.all_some, decide_eq_true_eq] at admitted
      exact absurd key admitted
  | served attempt number submission new brought free =>
      let event := Event.arrival number exchange.limits submission
      have arrived : exchange.Kept { state with system := state.system.step event } := by
        refine kept.event fun other limits own submitted is again key => ?_
        rcases Event.arrival.inj is with ⟨-, -, rfl⟩
        exact Option.some.inj (brought.symm.trans again)
      refine arrived.receive new (fun other is => ?_) fun answer is => by cases is
      cases is
      refine ⟨.start exchange.limits submission, ?_, brought⟩
      simp [event, System.step, free, System.place_workers]
  | turnedAway attempt answer new status =>
      refine kept.receive new (fun number is => by cases is) fun other is => ?_
      cases is
      exact status
  | heard response is =>
      refine kept.conclude fun status text same => ?_
      cases same
      exact is
  | unheard kind message => exact kept.conclude fun status text same => by cases same

end Kept

theorem Kept.run (kept : exchange.Kept state) (incidents : List Incident) :
    exchange.Kept (exchange.run state incidents) := by
  induction incidents generalizing state with
  | nil => exact kept
  | cons incident incidents induction =>
      exact induction (kept.change (exchange.change_step state incident))

theorem kept_after (exchange : Exchange) (incidents : List Incident) :
    exchange.Kept (exchange.after incidents) :=
  Kept.run .initial incidents

theorem Kept.response?_change {next : State} (kept : exchange.Kept state)
    (change : exchange.Change state next) {attempt : Nat} {response : Client.Response}
    (is : exchange.response? state attempt = some response) :
    exchange.response? next attempt = some response := by
  cases change with
  | elsewhere event => exact kept.response?_event event is
  | served other number submission new =>
      have stays := kept.response?_event (.arrival number exchange.limits submission) is
      refine response?_receive ?_ _ stays
      exact new
  | turnedAway other answer new => exact response?_receive new _ is
  | nothing | heard | unheard => exact is

theorem Kept.response?_run (kept : exchange.Kept state) (incidents : List Incident) {attempt : Nat}
    {response : Client.Response} (is : exchange.response? state attempt = some response) :
    exchange.response? (exchange.run state incidents) attempt = some response := by
  induction incidents generalizing state with
  | nil => exact is
  | cons incident incidents induction =>
      have change := exchange.change_step state incident
      exact induction (kept.change change) (kept.response?_change change is)

theorem Kept.response?_of_returned (kept : exchange.Kept state) {response : Client.Response}
    (returned : exchange.returned? state = some (.ok response)) :
    ∃ attempt, exchange.response? state attempt = some response := by
  rw [returned?] at returned
  split at returned
  · cases returned
  · rcases Client.post_ok (Option.some.inj returned) with ⟨index, answered⟩
    cases ended : state.endings[index]? with
    | none => simp [State.outcome, ended] at answered
    | some ending =>
        rw [outcome_of_ended ended] at answered
        subst answered
        exact ⟨index + 1, kept.endings index _ _ ended⟩

/-- The payload has taken effect: under its key there is one version, in its workspace and with its
hash, and the response tells of it. -/
def Effected (exchange : Exchange) (state : State) (response : Client.Response) : Prop :=
  ∃ submission version, exchange.submission? = some submission ∧
    state.system.store.versionsUnder submission.key = [version] ∧
    version.workspaceId = submission.workspaceId ∧
    version.payloadHash = submission.payloadHash ∧
    response.Names exchange.naming version

theorem Kept.effected (kept : exchange.Kept state) {attempt : Nat} {response : Client.Response}
    (is : exchange.response? state attempt = some response) (success : response.status = 200) :
    exchange.Effected state response := by
  cases received : state.received attempt with
  | none => simp [response?, received] at is
  | some reception =>
      cases reception with
      | turnedAway answer =>
          simp only [response?, received, Option.some.injEq] at is
          subst is
          have refused : answer.status = 400 := kept.turnedAway attempt answer received
          rw [response, refused] at success
          cases success
      | served number =>
          rcases response?_served received is with ⟨worker, result, found, answered, rfl⟩
          rcases kept.served attempt number received with ⟨other, otherFound, brought⟩
          rw [found] at otherFound
          cases otherFound
          rcases Api.succeeded_of_answerOf success with ⟨receipt, rfl, succeeded⟩
          rcases kept.reachable with ⟨events, reached⟩
          rw [reached] at found
          rcases System.version_of_receipt events found answered succeeded with
            ⟨version, number, source, only, tells, sourceFound, key, workspaceId, payloadHash⟩
          rw [← reached] at only sourceFound
          have own := kept.alone number source _ sourceFound brought key
          rw [own] at workspaceId payloadHash
          exact ⟨worker.submission, version, brought, only, workspaceId, payloadHash,
            response_names tells⟩

def linkageFields : List String := ["scanRunId", "graphVersionId", "graphVersionNumber"]

theorem Effected.agree {response other : Client.Response} (effected : exchange.Effected state response)
    (otherEffected : exchange.Effected state other) {name : String} (member : name ∈ linkageFields) :
    response.field? name = other.field? name := by
  rcases effected with ⟨submission, version, brought, only, -, -, names⟩
  rcases otherEffected with ⟨same, otherVersion, again, otherOnly, -, -, otherNames⟩
  rw [brought] at again
  cases again
  rw [only] at otherOnly
  cases otherOnly
  simp only [linkageFields, List.mem_cons, List.not_mem_nil, or_false] at member
  rcases member with rfl | rfl | rfl
  · exact names.run.trans otherNames.run.symm
  · exact names.id.trans otherNames.id.symm
  · exact names.number.trans otherNames.number.symm

/-! ## Progress -/

theorem Kept.payloadHash_of_key (kept : exchange.Kept state) {submission : Submission}
    (brought : exchange.submission? = some submission) {run : Run}
    (found : state.system.store.runWithKey? submission.key = some run) :
    run.payloadHash = submission.payloadHash := by
  rcases kept.reachable with ⟨events, reached⟩
  have sourced : state.system.Sourced := reached ▸ System.sourced_after events
  have parts := Store.mem_of_runWithKey? found
  rcases sourced run parts.1 with ⟨number, worker, workerFound, source⟩
  have own := kept.alone number worker submission workerFound brought
    (source.key.symm.trans parts.2)
  rw [source.payloadHash, own]

theorem Kept.serves (kept : exchange.Kept state) {submission : Submission}
    (brought : exchange.submission? = some submission)
    (idle : ∀ run ∈ state.system.store.runs, run.key = submission.key → run.status ≠ .processing)
    (now : Instant) :
    ∃ receipt changed, receipt.status = .succeeded ∧
      Service.Comes (Service.ingestSubmission exchange.limits now submission) state.system.store
        (.ok receipt) changed := by
  rcases kept.reachable with ⟨events, reached⟩
  have regular : state.system.store.Regular := reached ▸ System.regular_after events
  rcases Api.Call.submission?_eq_some_iff.mp brought with ⟨value, request, -, -, prepared⟩
  have loopless := Submission.loopless_of_prepare prepared
  rcases Service.ingestSubmission_served regular.sound regular.linked regular.gapless
    exchange.limits now loopless with ⟨result, changed, served, comes⟩
  cases served with
  | committed id attempts middle outcome => exact ⟨_, _, rfl, comes⟩
  | replayed run linkage found same succeeded names => exact ⟨_, _, rfl, comes⟩
  | toldToWait run found same processing =>
      have parts := Store.mem_of_runWithKey? found
      exact absurd processing (idle run parts.1 parts.2)
  | refused run found different =>
      exact absurd (kept.payloadHash_of_key brought found) different

/-- As long as no attempt under the key is in progress, posting succeeds with the request that was
sent last, if that comes in and nothing gets in its way. So a success that the client did not hear
of is told again. -/
theorem Kept.returns_unhindered (kept : exchange.Kept state) {submission : Submission}
    (brought : exchange.submission? = some submission) (waits : exchange.waits state)
    (new : state.received (state.endings.length + 1) = none) {number : Nat}
    (free : state.system.workers number = none)
    (idle : ∀ run ∈ state.system.store.runs, run.key = submission.key → run.status ≠ .processing)
    (now : Instant) :
    ∃ incidents response, response.status = 200 ∧
      exchange.returned? (exchange.run state incidents) = some (.ok response) := by
  have sent : state.endings.length < (exchange.transcript state).sent := by
    simpa [Exchange.waits] using waits
  rcases kept.serves brought idle now with ⟨receipt, changed, succeeded, comes⟩
  rcases comes [] with ⟨noted, came⟩
  rcases Api.respond_submission exchange.call_submits brought now came with ⟨log, served⟩
  rcases response_alone (Nat.le_add_left 1 _) sent new free now .none [] with
    ⟨turns, -, same, responded⟩
  let incidents := Incident.arrival (state.endings.length + 1) number now ::
    turns.map fun turn => .service (.turn number turn)
  let response := exchange.response (Api.answerOf (.ok receipt))
  have status : response.status = 200 := by
    simp [response, Exchange.response, Api.answerOf, succeeded]
  have accepted : Client.isAccepted response.status := by
    rw [status]
    rfl
  have stillWaits : exchange.waits (exchange.run state incidents) := by
    rwa [waits_congr same]
  have last : (exchange.run state incidents).endings = state.endings := same
  rw [served] at responded
  have heard : exchange.response? (exchange.run state incidents)
      ((exchange.run state incidents).endings.length + 1) = some response := by
    rw [last]
    exact responded
  refine ⟨incidents ++ [.response], response, status, ?_⟩
  rw [Exchange.run, List.foldl_append]
  exact returned?_response stillWaits heard accepted

/-! ## Once and for all -/

/-- However often a payload is sent, and whatever becomes of the requests and of the responses to
them, nothing under its key takes effect twice. Once posting has come to a response of success, the
payload has taken effect and the response tells of it. What a response of success tells stays true,
and all of them, now and later, tell the same. -/
theorem commits_once (exchange : Exchange) (incidents later : List Incident) :
    let state := exchange.after incidents
    let last := exchange.run state later
    (∀ key, (state.system.store.versionsUnder key).length ≤ 1) ∧
    (∀ response, exchange.returned? state = some (.ok response) → response.status = 200 →
      (∃ attempt, exchange.response? state attempt = some response) ∧
        exchange.Effected state response) ∧
    ∀ attempt response, exchange.response? state attempt = some response → response.status = 200 →
      exchange.Effected last response ∧
      ∀ other otherResponse, exchange.response? last other = some otherResponse →
        otherResponse.status = 200 →
        ∀ name ∈ linkageFields, response.field? name = otherResponse.field? name := by
  intro state last
  have kept : exchange.Kept state := kept_after exchange incidents
  have keptLater : exchange.Kept last := kept.run later
  refine ⟨fun key => ?_, fun response returned success => ?_, fun attempt response is success => ?_⟩
  · rcases kept.reachable with ⟨events, reached⟩
    rw [reached]
    exact (System.linked_after events).length_versionsUnder_le (System.sound_after events) key
  · rcases kept.response?_of_returned returned with ⟨attempt, is⟩
    exact ⟨⟨attempt, is⟩, kept.effected is success⟩
  · have still := keptLater.effected (kept.response?_run later is) success
    refine ⟨still, fun other otherResponse otherIs otherSuccess name member => ?_⟩
    exact still.agree (keptLater.effected otherIs otherSuccess) member

def twice : Exchange where
  client := { Client.oneAttempt with attempts := 2 }
  payload := Client.payload "key" "workspace" .manual "scanner" none []
    (Request.bare "key").snapshot.toJson
  limits := .standard
  naming := Store.empty.naming

theorem submission?_twice : ∃ submission, twice.submission? = some submission := by
  have json : twice.call.json? = some twice.payload :=
    @Client.json?_payload [] twice.client "key" "workspace" .manual "scanner" none .nil
      (Request.bare "key").snapshot twice.call.method twice.call.target
  have checked : Request.check twice.payload = .valid (.bare "key") := rfl
  have prepared : ∃ submission, Submission.prepare .standard (.bare "key") = .ok submission :=
    ⟨_, rfl⟩
  rcases prepared with ⟨submission, prepared⟩
  exact ⟨submission, Api.Call.submission?_eq_some_iff.mpr ⟨_, _, json, checked, prepared⟩⟩

/-- The first request gets lost. The second one is answered with success. -/
theorem commits_once_lost :
    ∃ incidents response,
      let state := twice.after (.silence "ConnectError" "" :: incidents)
      twice.returned? state = some (.ok response) ∧ response.status = 200 ∧
        (∃ attempt, twice.response? state attempt = some response) ∧
        twice.Effected state response := by
  rcases submission?_twice with ⟨submission, brought⟩
  let start := twice.after [.silence "ConnectError" ""]
  have kept : twice.Kept start := kept_after twice _
  have waits : twice.waits start := by rfl
  have new : start.received (start.endings.length + 1) = none := rfl
  have free : start.system.workers 0 = none := rfl
  have idle : ∀ run ∈ start.system.store.runs, run.key = submission.key →
      run.status ≠ .processing := by
    intro run member
    cases member
  rcases kept.returns_unhindered brought waits new free idle ⟨0⟩ with
    ⟨incidents, response, success, returned⟩
  have settled := (commits_once twice (.silence "ConnectError" "" :: incidents) []).2.1
  exact ⟨incidents, response, returned, success, settled response returned success⟩

end Exchange

end WorkspaceGraph
