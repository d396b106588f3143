import WorkspaceGraph.Json.Writer
import WorkspaceGraph.Log.Entry
import WorkspaceGraph.Log.Template
/-!
Log records: messages with arguments and further fields, as they are written, one JSON record
each.
-/

namespace WorkspaceGraph.Log

structure Record where
  level : Level
  message : String
  arguments : List Json
  extra : List (String × Json)
deriving Repr

def logName : String := "graphscan"

def contextFields : List String := ["workspace_id", "scan_run_id", "idempotency_key", "request_id"]

/-- The names that further fields must not have, because every record has them anyway. -/
def takenNames : List String := [
  "message", "asctime", "name", "msg", "args", "levelname", "levelno", "pathname", "filename",
  "module", "exc_info", "exc_text", "stack_info", "lineno", "funcName", "created", "msecs",
  "relativeCreated", "thread", "threadName", "processName", "process"]

def isVoid : Json → Bool
  | .null => true
  | .bool value => !value
  | .int value => value == 0
  | .real value => value.beqInt 0
  | .text value => value.isEmpty
  | .list items => items.isEmpty
  | .record fields => fields.isEmpty

namespace Record

def hasClash (record : Record) : Bool :=
  record.extra.any fun field => takenNames.contains field.1

def isShown (name : String) : Bool := !name.startsWith "_"

def timestamp (now : String) (record : Record) : Json :=
  match Json.lookup "timestamp" record.extra with
  | some value => if isVoid value then .text now else value
  | none => .text now

def shownField (field : String × Json) : String × Json :=
  if contextFields.contains field.1 then (field.1, .text field.2.display) else field

def toJson? (now : String) (record : Record) : Option Json :=
  (message? record.message record.arguments).map fun message =>
    let own := ["timestamp", "level", "logger"]
    let further := record.extra.filter fun field => isShown field.1 && !own.contains field.1
    .record ([
      ("timestamp", record.timestamp now),
      ("level", .text record.level.name),
      ("logger", .text logName),
      ("message", .text message)] ++ further.map shownField)

end Record

/-- The records that a log with a threshold writes, unless one of them has a field whose name is
taken. -/
def written? (threshold : Level) (now : String) (records : List Record) : Option (List Json) :=
  let heard := records.filter fun record => record.level.reaches threshold
  if heard.any Record.hasClash then none else some (heard.filterMap (Record.toJson? now))

def Entry.line (entry : Entry) : String :=
  Json.render .record (.record [
    ("level", .text entry.level.name),
    ("logger", .text logName),
    ("message", .text entry.message)])

end WorkspaceGraph.Log
