import WorkspaceGraph.Api.Answer
import WorkspaceGraph.Api.Target
import WorkspaceGraph.Text.Encoding
/-!
Serving requests: finding the route of a request, running it, and answering what it returns or
fails with.
-/

namespace WorkspaceGraph.Api

inductive Route
  | ingest
  | latest
  | health
deriving DecidableEq, Repr

namespace Route

def path : Route → String
  | ingest => "/api/v1/scanner/ingest"
  | latest => "/api/v1/scanner/runs/latest"
  | health => "/health"

def method : Route → String
  | ingest => "POST"
  | latest => "GET"
  | health => "GET"

def all : List Route := [ingest, latest, health]

def at? (path : String) : Option Route := all.find? fun route => route.path = path

end Route

structure Call where
  method : String
  target : Target
  body : List UInt8
deriving DecidableEq, Repr

inductive Destination
  | route (route : Route)
  /-- There is a route at the path, for another method. -/
  | otherMethod
  /-- There is a route at the path without the slashes at its end. -/
  | elsewhere
  | nowhere
deriving DecidableEq, Repr

def withoutSlashes (path : String) : String :=
  String.ofList (Text.dropEndWhile (· == '/') path.toList)

def Call.destination (call : Call) : Destination :=
  match Route.at? call.target.path with
  | some route => if call.method = route.method then .route route else .otherMethod
  | none =>
      if call.target.path ≠ withoutSlashes call.target.path &&
          (Route.at? (withoutSlashes call.target.path)).isSome then .elsewhere
      else .nowhere

/-! ## Routes -/

def Call.json? (call : Call) : Option Json :=
  match Text.decodeDetected? call.body with
  | none => none
  | some text =>
      match Json.parse text with
      | .ok value => some value
      | .error _ => none

/-- Answer a request with a snapshot: at once if its run is finished, and otherwise with the
status of something accepted. -/
def ingest (limits : Limits) (now : Instant) (call : Call) : Service Answer :=
  match call.json? with
  | none => return ⟨400, .error "INVALID_JSON" "Request body must be valid JSON."⟩
  | some value =>
      match Request.check value with
      | .invalid problems =>
          throw (.ingestion (.ofKind .invalidRequest
            ((problems.head?.map Schema.Problem.message).getD "")))
      | .valid request => do
          let receipt ← Service.ingest limits now request
          return ⟨if receipt.status = .processing then 202 else 200, .receipt receipt⟩

def noRunYet (workspaceId : String) : Log.Entry where
  level := .info
  message := "No succeeded scan run yet"
  workspaceId := some workspaceId
  run := none
  key := none

def latest (limits : Limits) (call : Call) : Service Answer := do
  let workspaceId := (call.target.value? "workspaceId").getD ""
  let found ← Service.latest limits workspaceId
  if found.isNone then Service.note (noRunYet workspaceId)
  return ⟨200, .latest found⟩

def serve (limits : Limits) (now : Instant) (call : Call) : Route → Service Answer
  | .ingest => ingest limits now call
  | .latest => latest limits call
  | .health => return ⟨200, .health⟩

/-! ## Answering -/

def answerTo : StoreError → Answer × Bool
  | .ingestion error => (⟨error.status, .error error.code error.message⟩, false)
  | _ =>
      (⟨500, .error "INGESTION_REQUEST_FAILED" "Scanner snapshot ingestion request failed."⟩, true)

def complaints : StoreError → List Log.Entry
  | .ingestion error =>
      if 500 ≤ error.status then
        [.plain .error ("Ingestion request failed [" ++ error.code ++ "]: " ++ error.message)]
      else []
  | _ => [.plain .error "Unhandled exception while handling request"]

def access (call : Call) (answer : Answer) : Log.Entry :=
  .plain .info (call.method ++ " " ++ call.target.path ++ " -> " ++ toString answer.status)

def attend (limits : Limits) (now : Instant) (call : Call) (route : Route) (world : World) :
    Answer × World :=
  match (serve limits now call route).run.run world with
  | (.ok answer, world) => (answer, { world with log := world.log ++ [access call answer] })
  | (.error error, world) =>
      let (answer, unexpected) := answerTo error
      let entries := complaints error ++ if unexpected then [] else [access call answer]
      (answer, { world with log := world.log ++ entries })

def reply (limits : Limits) (now : Instant) (call : Call) (world : World) : Answer × World :=
  let plain := fun (answer : Answer) =>
    (answer, { world with log := world.log ++ [access call answer] })
  match call.destination with
  | .route route => attend limits now call route world
  | .otherMethod => plain ⟨405, .detail "Method Not Allowed"⟩
  | .elsewhere => plain ⟨307, .empty⟩
  | .nowhere => plain ⟨404, .detail "Not Found"⟩

/-- Answer a request. Who asks for the head of an answer gets no body. -/
def respond (limits : Limits) (now : Instant) (call : Call) (world : World) : Answer × World :=
  let (answer, world) := reply limits now call world
  (if call.method = "HEAD" then { answer with body := .empty } else answer, world)

end WorkspaceGraph.Api
