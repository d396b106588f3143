import WorkspaceGraph.Workspace.Error
import WorkspaceGraph.FileTree
/-!
The registry of a workspace: the config file that was found and its projects, each an entry that is
still to be resolved.
-/

namespace WorkspaceGraph

structure Registry where
  config : String
  entries : List (String × Json)
deriving Repr

def readConfig (kind : ConfigKind) (path text : String) : Except WorkspaceError Json :=
  match Json.parse text with
  | .ok value => .ok value
  | .error cause => .error (.unreadableConfig kind (Path.relativeForm path) cause)

namespace Registry

def ofConfig (config : String) : Json → Except WorkspaceError Registry
  | .record fields =>
      match Json.lookup "projects" fields with
      | some (.record entries) => .ok ⟨config, entries⟩
      | _ => .error (.projectsMissing config)
  | _ => .error (.workspaceNotRecord config)

def loadFirst (tree : FileTree) (root : String) : List String → Except WorkspaceError Registry
  | [] => .error (.workspaceNotFound root)
  | candidate :: rest =>
      let path := Path.join root candidate
      match tree.readText? path with
      | none => loadFirst tree root rest
      | some text => (readConfig .workspace path text).bind (ofConfig candidate)

def load (tree : FileTree) (root : String) : Except WorkspaceError Registry :=
  loadFirst tree root WorkspaceError.candidates

end Registry

end WorkspaceGraph
