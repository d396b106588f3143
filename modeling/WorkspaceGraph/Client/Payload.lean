import WorkspaceGraph.Submission.Request
import WorkspaceGraph.Text.Blank
import WorkspaceGraph.Text.Case
/-!
What a build posts: the key, the workspace and the origin that follow from what is known of the
build, put together with a snapshot.
-/

namespace WorkspaceGraph.Client

def keyLimit : Nat := 128

def workspaceLimit : Nat := 128

def isKeyChar (char : Char) : Bool :=
  ('A' ≤ char && char ≤ 'Z') || ('a' ≤ char && char ≤ 'z') || ('0' ≤ char && char ≤ '9') ||
    char == '.' || char == '_' || char == ':' || char == '-'

def nonEmpty (value : Option String) : Option String :=
  match value with
  | some "" => none
  | value => value

/-- The key made of a text: every other character becomes a hyphen. Of the empty text no key can be
made. -/
def keyOfText? (text : String) : Option String :=
  if text.isEmpty then none
  else
    some (String.ofList
      ((text.toList.map fun char => if isKeyChar char then char else '-').take keyLimit))

def noKeyMessage : String := "INGEST_IDEMPOTENCY_KEY must contain at least one valid character."

structure Build where
  reason : Option String
  id : Option String
  attempt : Option String
deriving DecidableEq, Repr

def Build.keyText (build : Build) : String :=
  "ci-" ++ Text.lower ((nonEmpty build.reason).getD "manual") ++ "-" ++
    (nonEmpty build.id).getD "local" ++ "-attempt-" ++ (nonEmpty build.attempt).getD "1"

def deriveKey? (explicit : Option String) (build : Build) : Option String :=
  keyOfText? ((nonEmpty explicit).getD build.keyText)

def deriveWorkspaceId (explicit teamProject repositoryName : Option String) : String :=
  Text.takeChars workspaceLimit ((nonEmpty explicit).getD
    ((nonEmpty teamProject).getD "local" ++ "/" ++ (nonEmpty repositoryName).getD "workspace"))

def deriveOrigin (branch commitSha runId : Option String) : List (String × Json) :=
  [("branch", branch), ("commitSha", commitSha), ("runId", runId)].filterMap fun field =>
    (nonEmpty field.2).map fun value => (field.1, Json.text value)

def scannerJson (name : String) (version : Option String) : Json :=
  .record (("name", .text name) ::
    match nonEmpty version with
    | some version => [("version", .text version)]
    | none => [])

/-- The payload of a snapshot. An origin of which nothing is known is left out. -/
def payload (key workspaceId : String) (trigger : Trigger) (scannerName : String)
    (scannerVersion : Option String) (origin : List (String × Json)) (snapshot : Json) : Json :=
  .record ([
    ("idempotencyKey", .text key),
    ("workspaceId", .text workspaceId),
    ("source", .text trigger.text),
    ("scanner", scannerJson scannerName scannerVersion)] ++
    (if origin.isEmpty then [] else [("metadata", .record origin)]) ++
    [("snapshot", snapshot)])

end WorkspaceGraph.Client
