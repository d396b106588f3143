import WorkspaceGraph.Workspace.Project
/-!
Snapshots: the dependency graph of a workspace at one moment. It holds the projects, the libraries
among them, the components found in their sources, and the edges between projects with the files
that make them.
-/

namespace WorkspaceGraph

namespace Snapshot

structure ProjectNode where
  name : String
  type : ProjectType
  rootPath : String
  sourceRootPath : Option String
  configFilePath : String
  dependencies : List String
deriving DecidableEq, Repr

structure LibraryNode where
  name : String
  rootPath : String
  sourceRootPath : Option String
  configFilePath : String
deriving DecidableEq, Repr

structure ComponentNode where
  name : String
  className : Option String
  selector : Option String
  standalone : Option Bool
  project : String
  filePath : String
  dependencies : List String
deriving DecidableEq, Repr

structure Edge where
  source : String
  target : String
  files : List String
deriving DecidableEq, Repr

def schemaVersion : Nat := 1

end Snapshot

structure Snapshot where
  workspaceConfigPath : String
  projects : List Snapshot.ProjectNode
  libraries : List Snapshot.LibraryNode
  components : List Snapshot.ComponentNode
  edges : List Snapshot.Edge
deriving DecidableEq, Repr

namespace Snapshot

structure Summary where
  projects : Nat
  libraries : Nat
  components : Nat
  edges : Nat
deriving DecidableEq, Repr

def summary (snapshot : Snapshot) : Summary where
  projects := snapshot.projects.length
  libraries := snapshot.libraries.length
  components := snapshot.components.length
  edges := snapshot.edges.length

end Snapshot

end WorkspaceGraph
