import WorkspaceGraph.Ingestion.Error
/-!
What a submission may do, given the run that its key belongs to.
-/

namespace WorkspaceGraph

inductive RunStatus
  | processing
  | succeeded
  | failed
deriving DecidableEq, Repr

namespace RunStatus

def text : RunStatus → String
  | processing => "processing"
  | succeeded => "succeeded"
  | failed => "failed"

def ofText? : String → Option RunStatus
  | "processing" => some processing
  | "succeeded" => some succeeded
  | "failed" => some failed
  | _ => none

end RunStatus

inductive Decision (α : Type u)
  /-- The key is new: a run is made for it. -/
  | acquire
  /-- The run failed: another attempt is made. -/
  | retry (run : α)
  /-- The run succeeded: its result stands. -/
  | deduplicate (run : α)
  | wait (run : α)
  /-- The key belongs to another payload. -/
  | refuse
deriving DecidableEq, Repr

namespace Decision

def name {α : Type u} : Decision α → String
  | acquire => "acquire_new"
  | retry _ => "acquire_retry"
  | deduplicate _ => "deduplicated_success"
  | wait _ => "in_progress"
  | refuse => "conflict"

def ofStatus {α : Type u} (run : α) : RunStatus → Decision α
  | .processing => wait run
  | .succeeded => deduplicate run
  | .failed => retry run

def make {α : Type u} (status : α → RunStatus) (hash : α → String) (existing : Option α)
    (payloadHash : String) : Decision α :=
  match existing with
  | none => acquire
  | some run => if hash run = payloadHash then ofStatus run (status run) else refuse

/-- Decide about a payload, given the word for the status and the fingerprint of the run of its
key. The word is looked at only if the fingerprints agree; it is handed back if it is none of a
status. -/
def ofWord (existing : Option (String × String)) (payloadHash : String) :
    Except String (Decision Unit) :=
  match existing with
  | none => .ok acquire
  | some (word, hash) =>
      if hash = payloadHash then
        match RunStatus.ofText? word with
        | some status => .ok (ofStatus () status)
        | none => .error word
      else .ok refuse

end Decision

end WorkspaceGraph
