import WorkspaceGraph.Workspace.Registry
import WorkspaceGraph.Order
/-!
Projects. An entry of the registry is a project's definition, or a reference to a file that holds
it. Resolving an entry gives the project's place in the workspace; roots and source roots have to
lie inside it.
-/

namespace WorkspaceGraph

inductive ProjectType
  | application
  | library
deriving DecidableEq, Repr

namespace ProjectType

def text : ProjectType → String
  | application => "application"
  | library => "library"

def ofText? : String → Option ProjectType
  | "application" => some application
  | "library" => some library
  | _ => none

def libraryDirectory : String := "libs"

def infer (declared : Json) (rootPath : String) : ProjectType :=
  match declared.text?.bind ofText? with
  | some type => type
  | none =>
      if rootPath == libraryDirectory ||
          (libraryDirectory.toList ++ ['/']).isPrefixOf rootPath.toList then
        library
      else application

end ProjectType

/-- A project and its place. Paths relative to the workspace are as the config spells them. -/
structure Project where
  name : String
  type : ProjectType
  rootPath : String
  sourceRootPath : Option String
  configFilePath : String
  absoluteRootPath : String
  absoluteScanRootPath : String
deriving DecidableEq, Repr

namespace Project

def configName : String := "project.json"

/-- A definition found for a project: its fields, the file it stands in, and the root it has if it
names none. -/
structure Definition where
  fields : Json
  configFilePath : String
  defaultRoot : Option String
deriving Repr

def withoutEnding? (text ending : String) : Option String :=
  if ending.toList.isSuffixOf text.toList then
    some (String.ofList (text.toList.take (text.length - ending.length)))
  else none

def referencePath (reference : String) : String :=
  Path.relativeForm
    (if (withoutEnding? reference ".json").isSome then reference
    else reference ++ "/" ++ configName)

def followReference (tree : FileTree) (root name reference : String) :
    Except WorkspaceError Definition :=
  let configPath := referencePath reference
  let absolutePath := Path.resolve root [configPath]
  match tree.readText? absolutePath with
  | none => .error (.projectConfigNotFound name configPath)
  | some text =>
      match readConfig .project absolutePath text with
      | .error error => .error error
      | .ok (.record fields) =>
          .ok ⟨.record fields, Path.relativeForm (Path.steps root absolutePath),
            withoutEnding? configPath ("/" ++ configName)⟩
      | .ok _ => .error (.projectConfigNotRecord name configPath)

def definition (tree : FileTree) (root config name : String) :
    Json → Except WorkspaceError Definition
  | .text reference => followReference tree root name reference
  | .record fields => .ok ⟨.record fields, config, none⟩
  | _ => .error (.unsupportedEntry name)

/-- The root of a definition: as declared, or else the default, unless that is empty. -/
def rootOf (definition : Definition) : Option String :=
  match definition.fields.field? "root" with
  | some (.text root) => some (Path.relativeForm root)
  | _ => definition.defaultRoot.filter (!·.isEmpty)

def sourceRootOf (definition : Definition) : Option String :=
  match definition.fields.field? "sourceRoot" with
  | some (.text root) => if (Text.trimmed? root).isSome then some (Path.relativeForm root) else none
  | _ => none

def requireInside (root name target : String) : Except WorkspaceError Unit :=
  if Path.isWithin target (Path.absoluteForm root) then .ok ()
  else .error (.outsideWorkspace name target)

def resolve (tree : FileTree) (root config name : String) (entry : Json) :
    Except WorkspaceError Project := do
  let definition ← definition tree root config name entry
  match rootOf definition with
  | none => .error (.rootMissing name definition.configFilePath)
  | some rootPath =>
      let sourceRootPath := sourceRootOf definition
      let absoluteRootPath := Path.resolve root [rootPath]
      let absoluteScanRootPath := Path.resolve root [sourceRootPath.getD rootPath]
      requireInside root name absoluteRootPath
      requireInside root name absoluteScanRootPath
      .ok {
        name
        type := ProjectType.infer ((definition.fields.field? "projectType").getD .null) rootPath
        rootPath
        sourceRootPath
        configFilePath := definition.configFilePath
        absoluteRootPath
        absoluteScanRootPath }

def resolveAll (tree : FileTree) (root config : String) :
    List (String × Json) → Except WorkspaceError (List Project)
  | [] => .ok []
  | (name, entry) :: rest => do
      let project ← resolve tree root config name entry
      let projects ← resolveAll tree root config rest
      .ok (project :: projects)

def loadAll (tree : FileTree) (root : String) (registry : Registry) :
    Except WorkspaceError (List Project) :=
  resolveAll tree root registry.config (Order.sortOn (fun entry => [entry.1]) registry.entries)

def toJson (project : Project) : Json :=
  .record [
    ("name", .text project.name),
    ("type", .text project.type.text),
    ("rootPath", .text project.rootPath),
    ("sourceRootPath", .textOrNull project.sourceRootPath),
    ("configFilePath", .text project.configFilePath),
    ("absoluteRootPath", .text project.absoluteRootPath),
    ("absoluteScanRootPath", .text project.absoluteScanRootPath)]

end Project

end WorkspaceGraph
