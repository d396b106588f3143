import WorkspaceGraph.Store.Basic
/-!
Names of rows. Where an id is shown, a run is named by its key and a version by its workspace and
number; a name from outside is shown as it is.
-/

namespace WorkspaceGraph

structure Naming where
  run : RowId → String
  version : RowId → String

def runName (key : String) : String := "run:" ++ key

def versionName (workspaceId : String) (number : Nat) : String :=
  "version:" ++ workspaceId ++ ":" ++ toString number

namespace Store

/-- The id of the run with a key. A key without a run stands for an id without a row. -/
def runIdOf (store : Store) (key : String) : RowId :=
  match store.runWithKey? key with
  | some run => run.id
  | none => .named (runName key)

def runIdText (store : Store) : RowId → String
  | .named name => name
  | id => ((store.run? id).map fun run => runName run.key).getD "run"

def versionIdText (store : Store) : RowId → String
  | .named name => name
  | id =>
      ((store.versions.find? fun version => version.id = id).map fun version =>
        versionName version.workspaceId version.number).getD "version"

def naming (store : Store) : Naming := ⟨store.runIdText, store.versionIdText⟩

end Store

end WorkspaceGraph
