import WorkspaceGraph.Resolution
import WorkspaceGraph.Source.Import
import WorkspaceGraph.Source.Component
import WorkspaceGraph.Snapshot.Canonical
import WorkspaceGraph.Log.Entry
/-!
Scanning a workspace. First everything is found out that does not need the sources: the registry,
the projects and the alias rules. Then every project's sources are read on their own, and the
findings are joined into one snapshot.
-/

namespace WorkspaceGraph

/-- What is known about a workspace before its sources are read. `owners` are the projects in order
of ownership. -/
structure Survey where
  root : String
  config : String
  projects : List Project
  owners : List Project
  rules : List AliasRule
deriving Repr

namespace Survey

def make (tree : FileTree) (root : String) : Except WorkspaceError Survey := do
  let registry ← Registry.load tree root
  let projects ← Project.loadAll tree root registry
  let owners := Project.sortByRoot projects
  let rules ← AliasRule.load tree root owners
  .ok ⟨root, registry.config, projects, owners, rules⟩

end Survey

namespace Scan

structure Findings where
  components : List Snapshot.ComponentNode
  edges : List Snapshot.Edge
deriving DecidableEq, Repr

def file (survey : Survey) (project : Project) (found : Source.Found) : Findings :=
  let path := (Path.relativeTo survey.root found.path).getD "."
  let content := Text.ofFileLenient found.content
  let dependencies := Resolution.dependencies survey.rules survey.owners project.name found.path
    (Source.Import.specifiers content)
  { edges := dependencies.map fun target => ⟨project.name, target, [path]⟩
    components := ((Source.Component.extract? content path).map fun component =>
      ({ name := component.name
         className := component.className
         selector := component.selector
         standalone := component.standalone
         project := project.name
         filePath := path
         dependencies } : Snapshot.ComponentNode)).toList }

def filesOf (tree : FileTree) (project : Project) : List Source.Found :=
  match Source.filesBelow tree project.absoluteScanRootPath with
  | .ok files => files
  | .error _ => []

def project (tree : FileTree) (survey : Survey) (project : Project) : Findings :=
  let findings := (filesOf tree project).map (file survey project)
  ⟨findings.flatMap (·.components), findings.flatMap (·.edges)⟩

def join (survey : Survey) (findings : List Findings) : Snapshot :=
  Snapshot.assemble survey.config survey.projects (findings.flatMap (·.components))
    (findings.flatMap (·.edges))

def ofSurvey (tree : FileTree) (survey : Survey) : Snapshot :=
  join survey (survey.projects.map (project tree survey))

def run (tree : FileTree) (root : String) : Except WorkspaceError Snapshot :=
  (Survey.make tree root).map (ofSurvey tree)

def log (tree : FileTree) (root : String) : List Log.Entry :=
  .plain .info ("Starting workspace scan of " ++ root) ::
    match Survey.make tree root with
    | .error _ => []
    | .ok survey =>
        let snapshot := ofSurvey tree survey
        let skipped := survey.projects.filter fun project =>
          !tree.isDirectory project.absoluteScanRootPath
        [.plain .info ("Resolved " ++ toString survey.projects.length ++ " projects and " ++
          toString survey.rules.length ++ " alias rules")] ++
        (skipped.map fun project => .plain .debug
          ("Scan root for project " ++ project.name ++ " does not exist, skipping")) ++
        [.plain .info ("Workspace scan completed: " ++ toString snapshot.components.length ++
          " components, " ++ toString snapshot.edges.length ++ " dependency edges")]

end Scan

end WorkspaceGraph
