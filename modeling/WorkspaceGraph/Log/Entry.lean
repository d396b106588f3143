import WorkspaceGraph.Store.RowId
/-!
Log entries: a level, a message, and the ids that say what the message is about.
-/

namespace WorkspaceGraph.Log

inductive Level
  | debug
  | info
  | warning
  | error
  | critical
deriving DecidableEq, Repr

namespace Level

def name : Level → String
  | debug => "DEBUG"
  | info => "INFO"
  | warning => "WARNING"
  | error => "ERROR"
  | critical => "CRITICAL"

def rank : Level → Nat
  | debug => 10
  | info => 20
  | warning => 30
  | error => 40
  | critical => 50

def ofName? : String → Option Level
  | "DEBUG" => some debug
  | "INFO" => some info
  | "WARNING" => some warning
  | "ERROR" => some error
  | "CRITICAL" => some critical
  | "WARN" => some warning
  | "FATAL" => some critical
  | _ => none

def reaches (level threshold : Level) : Bool := threshold.rank ≤ level.rank

end Level

structure Entry where
  level : Level
  message : String
  workspaceId : Option String
  run : Option RowId
  key : Option String
deriving DecidableEq, Repr

def Entry.plain (level : Level) (message : String) : Entry := ⟨level, message, none, none, none⟩

end WorkspaceGraph.Log
