import WorkspaceGraph.Json.Writer
import WorkspaceGraph.Log.Entry
import WorkspaceGraph.Number.Amount
import WorkspaceGraph.Text.Blank
/-!
Posting a payload. A request that gets no answer, or one that says to come back later, is sent
again after a pause; the pauses double up to a greatest length, and the number of attempts is
bounded.
-/

namespace WorkspaceGraph

structure Client where
  url : String
  token : Option String
  timeout : Amount
  attempts : Int
  initialPause : Amount
  greatestPause : Amount
deriving DecidableEq, Repr

namespace Client

/-! ## Pauses -/

/-- A power of two from here on has no floating-point number. -/
def scaleLimit : Nat := 1024

/-- An amount times `2 ^ steps`. A floating-point number cannot be multiplied by a power that has no
floating-point number itself. -/
def double? (steps : Nat) : Amount → Option Amount
  | .whole value => some (.whole (value * Int.pow 2 steps))
  | .real value => if scaleLimit ≤ steps then none else some (.real (value.scale steps))

def pause? (attempt : Int) (initial greatest : Amount) : Option Amount :=
  (double? (attempt - 1).toNat initial).map fun pause => pause.min greatest

/-! ## Requests and answers -/

structure Sent where
  url : String
  authorization : Option String
  body : String
deriving DecidableEq, Repr

inductive Outcome
  | answer (status : Nat) (text : String)
  /-- The request or its answer was lost on the way. -/
  | lost (kind message : String)
  /-- Something else went wrong. -/
  | broken (kind message : String)
deriving DecidableEq, Repr

structure Response where
  status : Nat
  text : String
deriving DecidableEq, Repr

inductive PostError
  /-- The answer is final, or there are no attempts left. -/
  | rejected (message : String)
  /-- Something went wrong that is not worth another attempt. -/
  | broken (kind message : String)
  /-- The pause that is due cannot be computed. -/
  | pauseOverflow
  /-- The token has characters that no header takes. -/
  | unwritableToken
deriving DecidableEq, Repr

def summaryLimit : Nat := 500

def summarize (text : String) : String :=
  let line := Text.collapse text
  if line.isEmpty then "empty response body" else Text.abbreviate summaryLimit summaryLimit line

def transientStatuses : List Nat := [408, 425, 429, 500, 502, 503, 504]

def isTransient (status : Nat) : Bool := transientStatuses.contains status

def isAccepted (status : Nat) : Bool := status == 200 || status == 202

def authorization (client : Client) : Option String :=
  match client.token with
  | some "" => none
  | token => token.map ("Bearer " ++ ·)

def requestOf (client : Client) (body : String) : Sent := ⟨client.url, client.authorization, body⟩

def request (client : Client) (payload : Json) : Sent :=
  client.requestOf (Json.render .spaced payload)

def hasWritableHeader (request : Sent) : Bool :=
  (request.authorization.getD "").toList.all fun char => char.toNat < 0x80

/-! ## Posting -/

structure Transcript where
  requests : List Sent
  pauses : List Amount
  log : List Log.Entry
  result : Except PostError Response
deriving Repr

namespace Transcript

def sent (transcript : Transcript) : Nat := transcript.requests.length

def stop (error : PostError) : Transcript := ⟨[], [], [], .error error⟩

def later (request : Sent) (pause : Amount) (entry : Log.Entry) (rest : Transcript) : Transcript :=
  ⟨request :: rest.requests, pause :: rest.pauses, entry :: rest.log, rest.result⟩

end Transcript

def label (client : Client) (attempt : Nat) : String :=
  "[attempt " ++ toString attempt ++ "/" ++ toString client.attempts ++ "] "

def exhausted : PostError :=
  .rejected "Exhausted ingestion attempts without a terminal result."

def finish (request : Sent) (result : Except PostError Response) (log : List Log.Entry) :
    Transcript :=
  ⟨[request], [], log, result⟩

def goOn (client : Client) (request : Sent) (attempt : Nat) (trouble : String)
    (rest : Transcript) : Transcript :=
  match pause? attempt client.initialPause client.greatestPause with
  | none => finish request (.error .pauseOverflow) []
  | some pause =>
      rest.later request pause (.plain .warning
        (client.label attempt ++ trouble ++ ". Retrying in " ++ pause.text ++ "s"))

/-- Post a body from an attempt on, given what becomes of each request and how many attempts are
left with this one. -/
def postFrom (client : Client) (body : String) (outcome : Nat → Outcome) (attempt : Nat) :
    Nat → Transcript
  | 0 => .stop exhausted
  | left + 1 =>
      let isLast := left == 0
      let name := client.label attempt
      let request := client.requestOf body
      match outcome attempt with
      | .broken kind message => finish request (.error (.broken kind message)) []
      | .lost kind message =>
          let trouble := kind ++ ": " ++ message
          if isLast then finish request (.error (.rejected (name ++ trouble))) []
          else client.goOn request attempt trouble (postFrom client body outcome (attempt + 1) left)
      | .answer status text =>
          if isAccepted status then
            finish request (.ok ⟨status, text⟩) [.plain .info
              (name ++ "Completed with HTTP " ++ toString status ++ ": " ++ summarize text)]
          else if !isTransient status || isLast then
            finish request (.error (.rejected (name ++ "HTTP " ++ toString status ++
              " from scanner ingestion endpoint: " ++ summarize text))) []
          else
            client.goOn request attempt ("Transient HTTP " ++ toString status)
              (postFrom client body outcome (attempt + 1) left)

def post (client : Client) (outcome : Nat → Outcome) (payload : Json) : Transcript :=
  if hasWritableHeader (client.request payload) then
    client.postFrom (Json.render .spaced payload) outcome 1 client.attempts.toNat
  else .stop .unwritableToken

def noAttemptsMessage : String := "max_attempts must be at least 1"

def isUsable (client : Client) : Bool := 1 ≤ client.attempts

end Client

end WorkspaceGraph
