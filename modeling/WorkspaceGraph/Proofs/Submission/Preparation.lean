import WorkspaceGraph.Submission.Basic
/-!
What the submission of a request is made of.
-/

namespace WorkspaceGraph.Submission

structure Prepared (limits : Limits) (request : Request) (submission : Submission) : Prop where
  key : normalizeKey limits request.key = .ok submission.key
  workspaceId : normalizeWorkspaceId limits request.workspaceId = .ok submission.workspaceId
  scannerName : normalizeScannerName limits request.scanner.name = .ok submission.scanner.name
  scannerVersion :
    normalizeScannerVersion limits request.scanner.version = .ok submission.scanner.version
  trigger : submission.trigger = request.trigger
  origin : submission.origin = normalizeOrigin request.origin
  snapshot : submission.snapshot = request.snapshot.canonical
  payloadHash : submission.payloadHash =
    fingerprint submission.workspaceId submission.scanner submission.snapshot

theorem prepared_of_prepare {limits : Limits} {request : Request} {submission : Submission}
    (prepared : prepare limits request = .ok submission) :
    Prepared limits request submission := by
  simp only [prepare, bind, Except.bind] at prepared
  split at prepared
  · cases prepared
  split at prepared
  · cases prepared
  split at prepared
  · cases prepared
  split at prepared
  · cases prepared
  rename_i workspaceId isWorkspaceId _ scannerName isScannerName _ version isVersion _ key isKey
  cases prepared
  exact ⟨isKey, isWorkspaceId, isScannerName, isVersion, rfl, rfl, rfl, rfl⟩

end WorkspaceGraph.Submission
