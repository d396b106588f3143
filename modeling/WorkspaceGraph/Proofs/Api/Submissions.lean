import WorkspaceGraph.Proofs.Api.Changes
/-!
A request with a snapshot is answered with what comes of its submission. If there is none in it,
it is turned away and leaves no trace.
-/

namespace WorkspaceGraph.Api

def answerOf : Except StoreError Receipt → Answer
  | .ok receipt => ⟨if receipt.status = .processing then 202 else 200, .receipt receipt⟩
  | .error error => (answerTo error).1

variable {limits : Limits} {call : Call} {submission : Submission}

theorem Call.submission?_eq_some_iff : call.submission? limits = some submission ↔
    ∃ value request, call.json? = some value ∧ Request.check value = .valid request ∧
      Submission.prepare limits request = .ok submission := by
  rw [submission?]
  cases call.json? with
  | none => simp
  | some value =>
      cases checked : Request.check value with
      | invalid problems => simp [checked]
      | valid request =>
          cases prepared : Submission.prepare limits request with
          | error error => simp [checked, prepared, Except.toOption]
          | ok made => simp [checked, prepared, Except.toOption]

theorem ingest_eq (brought : call.submission? limits = some submission) (now : Instant) :
    ingest limits now call = do
      let receipt ← Service.ingestSubmission limits now submission
      return ⟨if receipt.status = .processing then 202 else 200, .receipt receipt⟩ := by
  rcases Call.submission?_eq_some_iff.mp brought with ⟨value, request, json, checked, prepared⟩
  rw [ingest, json]
  dsimp only
  rw [checked]
  simp only [Service.ingest, Service.prepare, prepared, pure_bind]

theorem attend_ingest (brought : call.submission? limits = some submission) (now : Instant)
    {world left : World} {result : Except StoreError Receipt}
    (came : (Service.ingestSubmission limits now submission).outcome world = (result, left)) :
    ∃ log, attend limits now call .ingest world = (answerOf result, { left with log }) := by
  have served : (serve limits now call .ingest).outcome world =
      (result.map fun receipt =>
        ⟨if receipt.status = .processing then 202 else 200, .receipt receipt⟩, left) := by
    rw [serve, ingest_eq brought, Service.outcome_bind, came]
    cases result <;> rfl
  rw [Service.outcome] at served
  rw [attend, served]
  cases result with
  | ok receipt => exact ⟨_, rfl⟩
  | error error => exact ⟨_, rfl⟩

theorem ingest_turned_away (missing : call.submission? limits = none) :
    (∃ answer, answer.status = 400 ∧
        ∀ now world, (ingest limits now call).outcome world = (.ok answer, world)) ∨
      ∃ error : IngestionError, error.status = 400 ∧
        ∀ now world, (ingest limits now call).outcome world =
          (.error (.ingestion error), world) := by
  rw [Call.submission?] at missing
  simp only [ingest]
  cases json : call.json? with
  | none => exact .inl ⟨_, rfl, fun _ _ => rfl⟩
  | some value =>
      dsimp only
      cases checked : Request.check value with
      | invalid problems => exact .inr ⟨.ofKind .invalidRequest _, rfl, fun _ _ => rfl⟩
      | valid request =>
          cases prepared : Submission.prepare limits request with
          | ok made => simp [json, checked, prepared, Except.toOption] at missing
          | error error =>
              refine .inr ⟨error, Submission.status_of_prepare prepared, fun now world => ?_⟩
              simp only [Service.ingest, Service.prepare, prepared]
              rfl

theorem attend_turned_away (missing : call.submission? limits = none) :
    ∃ answer, answer.status = 400 ∧ ∀ now world, ∃ log,
      attend limits now call .ingest world = (answer, { world with log }) := by
  rcases ingest_turned_away missing with ⟨answer, status, served⟩ | ⟨error, status, served⟩
  · refine ⟨answer, status, fun now world => ?_⟩
    have result := served now world
    rw [Service.outcome] at result
    rw [attend, serve, result]
    exact ⟨_, rfl⟩
  · refine ⟨(answerTo (.ingestion error)).1, status, fun now world => ?_⟩
    have result := served now world
    rw [Service.outcome] at result
    rw [attend, serve, result]
    exact ⟨_, rfl⟩

/-! ## Requests -/

structure Call.Submits (call : Call) : Prop where
  method : call.method = Route.ingest.method
  path : call.target.path = Route.ingest.path

theorem respond_eq (submits : call.Submits) (now : Instant) (world : World) :
    respond limits now call world = attend limits now call .ingest world := by
  have notHead : call.method ≠ "HEAD" := by
    rw [submits.method]
    decide
  simp only [respond, reply, Call.destination_ingest submits.method submits.path, notHead, if_false]

theorem respond_submission (submits : call.Submits)
    (brought : call.submission? limits = some submission) (now : Instant)
    {world left : World} {result : Except StoreError Receipt}
    (came : (Service.ingestSubmission limits now submission).outcome world = (result, left)) :
    ∃ log, respond limits now call world = (answerOf result, { left with log }) := by
  rw [respond_eq submits]
  exact attend_ingest brought now came

/-- Whenever a request without a submission comes, and whatever it meets, it is turned away with
the same answer and changes nothing. -/
theorem respond_turned_away (submits : call.Submits) (missing : call.submission? limits = none) :
    ∃ answer, answer.status = 400 ∧ ∀ now world, ∃ log,
      respond limits now call world = (answer, { world with log }) := by
  rcases attend_turned_away missing with ⟨answer, status, attended⟩
  refine ⟨answer, status, fun now world => ?_⟩
  rw [respond_eq submits]
  exact attended now world

end WorkspaceGraph.Api
