/-!
Why an ingestion is refused or fails. Every kind of error has a code for programs and the status of
the answer it is reported with.
-/

namespace WorkspaceGraph

namespace IngestionError

inductive Kind
  | invalidRequest
  | keyConflict
  | payloadMismatch
  | brokenRecord
  | runNotFound
  | invalidRunState
  | failed
deriving DecidableEq, Repr

def Kind.code : Kind → String
  | invalidRequest => "INVALID_REQUEST"
  | keyConflict => "IDEMPOTENCY_KEY_CONFLICT"
  | payloadMismatch => "PAYLOAD_HASH_MISMATCH"
  | brokenRecord => "DATA_INTEGRITY_ERROR"
  | runNotFound => "SCAN_RUN_NOT_FOUND"
  | invalidRunState => "INVALID_RUN_STATE"
  | failed => "INGESTION_FAILED"

def Kind.status : Kind → Nat
  | invalidRequest => 400
  | keyConflict => 409
  | payloadMismatch => 409
  | brokenRecord => 500
  | runNotFound => 500
  | invalidRunState => 500
  | failed => 500

end IngestionError

/-- An error with its message. The code is the kind's unless a more telling one is known. -/
structure IngestionError where
  kind : IngestionError.Kind
  code : String
  message : String
deriving DecidableEq, Repr

namespace IngestionError

def ofKind (kind : Kind) (message : String) : IngestionError := ⟨kind, kind.code, message⟩

def withCode (kind : Kind) (code : Option String) (message : String) : IngestionError :=
  match code with
  | some "" => ofKind kind message
  | some code => ⟨kind, code, message⟩
  | none => ofKind kind message

def status (error : IngestionError) : Nat := error.kind.status

/-! ## The errors there are -/

def required (field : String) : IngestionError :=
  ofKind .invalidRequest (field ++ " is required.")

def tooLong (field : String) (limit : Int) : IngestionError :=
  ofKind .invalidRequest (field ++ " must be " ++ toString limit ++ " characters or fewer.")

def conflictReason : String :=
  "Idempotency key reuse detected with a different scanner snapshot payload."

def keyReused : IngestionError := ofKind .keyConflict conflictReason

def otherWorkspace : IngestionError :=
  ofKind .payloadMismatch "workspaceId does not match the workspace for this scan run."

def otherPayload : IngestionError :=
  ofKind .payloadMismatch "payload hash mismatch for this scan run."

def missingLinkage : IngestionError :=
  ofKind .brokenRecord
    "scanRuns record is inconsistent: succeeded run has no graph version linkage."

def unknownRun : IngestionError := ofKind .runNotFound "Scan run not found."

def wrongState (status : String) : IngestionError :=
  ofKind .invalidRunState ("Scan run cannot be finalized from status \"" ++ status ++ "\".")

def attemptFailed (code message : String) : IngestionError :=
  withCode .failed (some code) ("[" ++ code ++ "] " ++ message)

end IngestionError

end WorkspaceGraph
