import WorkspaceGraph.Ingestion.Error
import WorkspaceGraph.Text.Quoted
/-!
What ends a transaction without effect.
-/

namespace WorkspaceGraph

inductive StoreError
  | ingestion (error : IngestionError)
  | keyTaken (key : Option String)
  /-- The workspace has this version already, or got its first one in the meantime. -/
  | versionTaken (workspaceId : Option String) (version : Option Int)
  | constraint (text : String)
  /-- The database failed, with the text it gave or without one. -/
  | database (text : Option String)
  | workspace (code message : String)
  /-- Anything else; some errors have a code of their own. -/
  | unforeseen (code : Option String) (message : String)
deriving DecidableEq, Repr

namespace StoreError

def quotedOrNone : Option String → String
  | some text => Text.quoted text
  | none => "None"

def versionText : Option Int → String
  | some version => toString version
  | none => "None"

def message : StoreError → String
  | ingestion error => error.message
  | keyTaken key => "Scan run for idempotency key " ++ quotedOrNone key ++ " already exists"
  | versionTaken workspaceId version =>
      "Graph version " ++ versionText version ++ " for workspace " ++ quotedOrNone workspaceId ++
        " was committed concurrently"
  | constraint text => "IntegrityError: " ++ text
  | database (some text) => "OperationalError: " ++ text
  | database none => "SQLAlchemyError: database operation failed."
  | workspace _ message => message
  | unforeseen _ message => message

def code? : StoreError → Option String
  | ingestion error => some error.code
  | keyTaken _ => none
  | versionTaken .. => some "GRAPH_VERSION_CONFLICT"
  | constraint _ => none
  | database _ => none
  | workspace code _ => some code
  | unforeseen code _ => code

end StoreError

end WorkspaceGraph
