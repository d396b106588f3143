import WorkspaceGraph.Snapshot.Basic
/-!
The canonical form of a snapshot: everything in order and without repetition, so that equal graphs
are written alike. A dependency of something on itself is left out.
-/

namespace WorkspaceGraph.Snapshot

/-! ## Edges -/

def Edge.key (edge : Edge) : List String := [edge.source, edge.target]

/-- Put an edge into a list that is strictly increasing by key; the files of an edge that is there
already are joined with the new ones. -/
def insertEdge (edge : Edge) : List Edge → List Edge
  | [] => [{ edge with files := Order.distinct edge.files }]
  | next :: rest =>
      if edge.key < next.key then { edge with files := Order.distinct edge.files } :: next :: rest
      else if edge.key = next.key then
        { next with files := Order.distinct (edge.files ++ next.files) } :: rest
      else next :: insertEdge edge rest

def mergeEdges (edges : List Edge) : List Edge := edges.foldr insertEdge []

def canonicalEdges (edges : List Edge) : List Edge :=
  (mergeEdges edges).filter fun edge => edge.source != edge.target

/-! ## Nodes -/

def canonicalDependencies (owner : String) (dependencies : List String) : List String :=
  Order.distinct (dependencies.filter (· != owner))

def ProjectNode.canonical (project : ProjectNode) : ProjectNode :=
  { project with dependencies := canonicalDependencies project.name project.dependencies }

def ComponentNode.canonical (component : ComponentNode) : ComponentNode :=
  { component with
    dependencies := canonicalDependencies component.project component.dependencies }

def ComponentNode.key (component : ComponentNode) : List String :=
  [component.project, component.filePath, component.name]

def canonicalComponents (components : List ComponentNode) : List ComponentNode :=
  Order.sortOn ComponentNode.key (components.map ComponentNode.canonical)

/-! ## Snapshots -/

def canonical (snapshot : Snapshot) : Snapshot where
  workspaceConfigPath := snapshot.workspaceConfigPath
  projects :=
    (Order.sortOn (fun project => [project.name]) snapshot.projects).map ProjectNode.canonical
  libraries := Order.sortOn (fun library => [library.name]) snapshot.libraries
  components := canonicalComponents snapshot.components
  edges := canonicalEdges snapshot.edges

def ProjectNode.ofProject (edges : List Edge) (project : Project) : ProjectNode where
  name := project.name
  type := project.type
  rootPath := project.rootPath
  sourceRootPath := project.sourceRootPath
  configFilePath := project.configFilePath
  dependencies :=
    Order.distinct ((edges.filter fun edge => edge.source == project.name).map (·.target))

def LibraryNode.ofNode? (project : ProjectNode) : Option LibraryNode :=
  match project.type with
  | .library =>
      some ⟨project.name, project.rootPath, project.sourceRootPath, project.configFilePath⟩
  | .application => none

def assemble (configPath : String) (projects : List Project) (components : List ComponentNode)
    (edges : List Edge) : Snapshot :=
  let edges := canonicalEdges edges
  let nodes :=
    (Order.sortOn (fun project => [project.name]) projects).map (ProjectNode.ofProject edges)
  { workspaceConfigPath := configPath
    projects := nodes
    libraries := nodes.filterMap LibraryNode.ofNode?
    components := canonicalComponents components
    edges }

end WorkspaceGraph.Snapshot
