import WorkspaceGraph.Api.Route
import WorkspaceGraph.Proofs.Ingestion.Conduct
import WorkspaceGraph.Proofs.Interleaving.History
/-!
What a request with a snapshot may have changed, by the answer it got. Whatever goes wrong with the
store while it is served, nothing is left half written.
-/

namespace WorkspaceGraph

namespace Submission

theorem status_of_normalizeRequired {field : String} {limit : Int} {value : String}
    {error : IngestionError} (refused : normalizeRequired field limit value = .error error) :
    error.status = 400 := by
  rw [normalizeRequired] at refused
  split at refused
  · cases refused
    rfl
  · split at refused
    · cases refused
      rfl
    · cases refused

theorem status_of_normalizeScannerVersion {limits : Limits} {version : Option String}
    {error : IngestionError} (refused : normalizeScannerVersion limits version = .error error) :
    error.status = 400 := by
  rw [normalizeScannerVersion] at refused
  split at refused
  · cases refused
  · split at refused
    · cases refused
      rfl
    · cases refused

theorem status_of_prepare {limits : Limits} {request : Request} {error : IngestionError}
    (refused : prepare limits request = .error error) : error.status = 400 := by
  simp only [prepare, bind, Except.bind] at refused
  split at refused
  · cases refused
    exact status_of_normalizeRequired ‹_›
  split at refused
  · cases refused
    exact status_of_normalizeRequired ‹_›
  split at refused
  · cases refused
    exact status_of_normalizeScannerVersion ‹_›
  split at refused
  · cases refused
    exact status_of_normalizeRequired ‹_›
  · cases refused

end Submission

theorem Transaction.filter_setHead {head : Head} {workspaceId : String}
    (different : head.workspaceId ≠ workspaceId) (heads : List Head) :
    (setHead head heads).filter (fun other => other.workspaceId = workspaceId) =
      heads.filter (fun other => other.workspaceId = workspaceId) := by
  induction heads with
  | nil => simp [setHead, different]
  | cons next rest induction =>
      by_cases replaced : next.workspaceId = head.workspaceId
      · simp [setHead, replaced, different]
      · simp [setHead, replaced, List.filter_cons, induction]

namespace Api

def Call.submission? (limits : Limits) (call : Call) : Option Submission :=
  match call.json? with
  | none => none
  | some value =>
      match Request.check value with
      | .invalid _ => none
      | .valid request => (Submission.prepare limits request).toOption

/-- What a request with a snapshot may have changed, by its answer. -/
structure Changes (limits : Limits) (call : Call) (answer : Answer) (before after : Store) :
    Prop where
  statuses : answer.status ∈ [200, 202, 400, 409, 500]
  /-- A request that is refused or told to wait changes nothing. -/
  unchanged : answer.status ∈ [202, 400, 409] → after = before
  /-- Neither does one that is answered as another one was before. Any other success has made one
  version. -/
  succeeded : answer.status = 200 → ∃ receipt, answer.body = .receipt receipt ∧
    (receipt.deduplicated = true → after = before) ∧
    (receipt.deduplicated = false → ∃ submission version run,
      call.submission? limits = some submission ∧
        submission.Committed receipt before after version run)
  /-- A request that failed has made none. Its run may have been entered. -/
  failed : answer.status = 500 → after.versions = before.versions ∧ after.heads = before.heads ∧
    (after.runs = before.runs ∨ ∃ submission run, call.submission? limits = some submission ∧
      Store.Entered submission.key before.runs after.runs run)
  earlier : before.versions <+: after.versions
  otherRuns : ∀ key, (∀ submission, call.submission? limits = some submission →
      submission.key ≠ key) →
    after.runs.filter (fun run => run.key = key) = before.runs.filter (fun run => run.key = key)
  otherVersions : ∀ workspaceId, (∀ submission, call.submission? limits = some submission →
      submission.workspaceId ≠ workspaceId) →
    after.history workspaceId = before.history workspaceId
  otherHeads : ∀ workspaceId, (∀ submission, call.submission? limits = some submission →
      submission.workspaceId ≠ workspaceId) →
    after.heads.filter (fun head => head.workspaceId = workspaceId) =
      before.heads.filter (fun head => head.workspaceId = workspaceId)

namespace Changes

variable {limits : Limits} {call : Call} {before after : Store} {answer : Answer}
  {submission : Submission}

theorem of_same (statuses : answer.status ∈ [202, 400, 409]) :
    Changes limits call answer before before where
  statuses := by
    simp only [List.mem_cons, List.not_mem_nil, or_false] at statuses ⊢
    omega
  unchanged := fun _ => rfl
  succeeded := by
    intro status
    simp [status] at statuses
  failed := by
    intro status
    simp [status] at statuses
  earlier := List.prefix_refl _
  otherRuns := fun _ _ => rfl
  otherVersions := fun _ _ => rfl
  otherHeads := fun _ _ => rfl

theorem of_found {receipt : Receipt} (found : receipt.deduplicated = true) :
    Changes limits call ⟨200, .receipt receipt⟩ before before where
  statuses := by simp
  unchanged := fun _ => rfl
  succeeded := fun _ => ⟨receipt, rfl, fun _ => rfl, fun made => by simp [found] at made⟩
  failed := by
    intro status
    cases status
  earlier := List.prefix_refl _
  otherRuns := fun _ _ => rfl
  otherVersions := fun _ _ => rfl
  otherHeads := fun _ _ => rfl

theorem of_committed {receipt : Receipt} {version : Version} {run : Run}
    (brought : call.submission? limits = some submission)
    (committed : submission.Committed receipt before after version run) :
    Changes limits call ⟨200, .receipt receipt⟩ before after where
  statuses := by simp
  unchanged := by
    intro status
    simp at status
  succeeded := by
    intro _
    refine ⟨receipt, rfl, fun found => ?_, fun _ => ⟨submission, version, run, brought, committed⟩⟩
    rw [committed.receipt] at found
    cases found
  failed := by
    intro status
    cases status
  earlier := by
    rw [committed.versions]
    exact List.prefix_append ..
  otherRuns := by
    intro key others
    have different := others submission brought
    rw [← committed.entered.isOfKey] at different
    rw [committed.entered.isEntered, Store.filter_enterRun different]
  otherVersions := by
    intro workspaceId others
    have different := others submission brought
    rw [← committed.workspaceId] at different
    simp [Store.history, committed.versions, different]
  otherHeads := by
    intro workspaceId others
    have different := others submission brought
    rw [← committed.workspaceId] at different
    rw [committed.heads, Transaction.filter_setHead different]

theorem of_abandoned (status : answer.status = 500)
    (brought : call.submission? limits = some submission)
    (abandoned : submission.Abandoned before after) :
    Changes limits call answer before after where
  statuses := by simp [status]
  unchanged := by
    intro other
    simp [status] at other
  succeeded := by
    intro other
    simp [status] at other
  failed := by
    intro _
    refine ⟨abandoned.versions, abandoned.heads, abandoned.runs.imp_right ?_⟩
    rintro ⟨run, entered⟩
    exact ⟨submission, run, brought, entered⟩
  earlier := abandoned.versions ▸ List.prefix_refl _
  otherRuns := by
    intro key others
    rcases abandoned.runs with same | ⟨run, entered⟩
    · rw [same]
    · have different := others submission brought
      rw [← entered.isOfKey] at different
      rw [entered.isEntered, Store.filter_enterRun different]
  otherVersions := fun _ _ => by rw [Store.history, abandoned.versions, Store.history]
  otherHeads := fun _ _ => by rw [abandoned.heads]

end Changes

/-! ## The route -/

theorem Call.destination_ingest {call : Call} (method : call.method = Route.ingest.method)
    (path : call.target.path = Route.ingest.path) : call.destination = .route .ingest := by
  have found : Route.at? call.target.path = some .ingest := by
    rw [path]
    decide
  rw [destination, found]
  simp [method]

variable {limits : Limits} {call : Call} {store : Store}

theorem ingestSubmission_ensures (sound : store.Sound) {submission : Submission}
    (brought : call.submission? limits = some submission) (now : Instant) :
    Service.Ensures (do
        let receipt ← Service.ingestSubmission limits now submission
        return ⟨if receipt.status = .processing then 202 else 200, .receipt receipt⟩) store
      (fun answer left => Changes limits call answer store left)
      (fun error left => Changes limits call (answerTo error).1 store left) := by
  refine Service.Ensures.bind ((Service.ingestSubmission_ensures sound limits now submission).mono
    (fun _ _ holds => holds) ?_) ?_
  · rintro error left unanswered
    cases unanswered with
    | refused error status => exact .of_same (by simp [answerTo, status])
    | failed error left status abandoned => exact .of_abandoned status brought abandoned
    | broke error left foreign abandoned =>
        refine .of_abandoned ?_ brought abandoned
        cases error with
        | ingestion own => exact absurd rfl (foreign own)
        | _ => rfl
  · rintro receipt left ingested
    cases ingested with
    | found found =>
        by_cases waits : receipt.status = .processing
        · exact .pure (.of_same (by simp [waits]))
        · simpa only [waits, if_false] using .pure (.of_found found)
    | committed left version run committed =>
        have finished : receipt.status ≠ .processing := by
          simp [committed.receipt, Receipt.status]
        simpa only [finished, if_false] using .pure (.of_committed brought committed)

theorem ingest_ensures (sound : store.Sound) (now : Instant) :
    Service.Ensures (ingest limits now call) store
      (fun answer left => Changes limits call answer store left)
      (fun error left => Changes limits call (answerTo error).1 store left) := by
  rw [ingest]
  cases json : call.json? with
  | none => exact .pure (.of_same (by simp))
  | some value =>
      dsimp only
      cases checked : Request.check value with
      | invalid problems => exact .throw (.of_same (by simp [answerTo, IngestionError.status,
          IngestionError.ofKind, IngestionError.Kind.status]))
      | valid request =>
          have brought : call.submission? limits =
              (Submission.prepare limits request).toOption := by
            simp only [Call.submission?, json, checked]
          dsimp only
          rw [Service.ingest, Service.prepare]
          cases prepared : Submission.prepare limits request with
          | error error =>
              have status := Submission.status_of_prepare prepared
              exact fun faults log plain => ⟨.of_same (by simp [answerTo, status]), plain⟩
          | ok submission =>
              rw [prepared] at brought
              exact ingestSubmission_ensures sound brought now

theorem respond_changes (sound : store.Sound) (now : Instant) {faults : Faults}
    (log : List Log.Entry) (method : call.method = Route.ingest.method)
    (path : call.target.path = Route.ingest.path) (plain : faults.Plain) :
    let served := respond limits now call ⟨store, faults, log⟩
    Changes limits call served.1 store served.2.store := by
  have agreed := @ingest_ensures limits call store sound now faults log plain
  have notHead : call.method ≠ "HEAD" := by
    rw [method]
    decide
  rw [respond, reply, Call.destination_ingest method path]
  simp only [attend, serve, notHead, if_false]
  rw [Service.outcome] at agreed
  generalize StateT.run (ExceptT.run (ingest limits now call)) _ = result at agreed ⊢
  rcases result with ⟨error | answer, left⟩
  · exact agreed.1
  · exact agreed.1

/-- Whatever was ingested before, whatever the request, and whatever goes wrong while it is served
short of an ingestion error: what the request may have changed is told by its answer. -/
theorem changes_by_answer (events : List Event) (limits : Limits) (now : Instant) (call : Call)
    (faults : Faults) (log : List Log.Entry) (method : call.method = Route.ingest.method)
    (path : call.target.path = Route.ingest.path) (plain : faults.Plain) :
    let store := (System.after events).store
    let served := respond limits now call ⟨store, faults, log⟩
    Changes limits call served.1 store served.2.store :=
  respond_changes (System.sound_after events) now log method path plain

/-- One version was made, and the database fails when the head is to be set to the next one. -/
theorem changes_by_answer_unwritten :
    let events := [.arrival 0 .standard (.bare "first" "payload"), .turn 0 .calm, .turn 0 .calm]
    let request : Request :=
      ⟨"second", "workspace", .manual, ⟨"scanner", none⟩, none, ⟨"workspace.json", [], [], [], []⟩⟩
    let body := Text.Utf8.encode (Json.render .indented request.toJson)
    let call : Call := ⟨"POST", ⟨"/api/v1/scanner/ingest", []⟩, body⟩
    let faults := { Faults.none with head := some (.database none) }
    let store := (System.after events).store
    let served := respond .standard ⟨0⟩ call ⟨store, faults, []⟩
    Changes .standard call served.1 store served.2.store := by
  intro events request body call faults
  have plain : faults.Plain := fun error raised => by
    simp [faults, Faults.Raises, Faults.none] at raised
  exact changes_by_answer events .standard ⟨0⟩ call faults [] rfl rfl plain

end Api

end WorkspaceGraph
