import WorkspaceGraph.Json.Reader
/-!
What can be wrong with a workspace. Every fault has a code, a message for people and details for
programs.
-/

namespace WorkspaceGraph

inductive ConfigKind
  | workspace
  | project
deriving DecidableEq, Repr

inductive WorkspaceError
  /-- None of the candidates for the workspace config is a file in the directory. -/
  | workspaceNotFound (root : String)
  | unreadableConfig (kind : ConfigKind) (path : String) (cause : Json.ReadError)
  | workspaceNotRecord (config : String)
  | projectsMissing (config : String)
  | unsupportedEntry (project : String)
  | projectConfigNotFound (project path : String)
  | projectConfigNotRecord (project path : String)
  | rootMissing (project config : String)
  /-- A project's root or source root lies outside the workspace. -/
  | outsideWorkspace (project target : String)
deriving DecidableEq, Repr

namespace WorkspaceError

def candidates : List String := ["angular.json", "workspace.json"]

def code : WorkspaceError → String
  | workspaceNotFound _ => "WORKSPACE_NOT_FOUND"
  | unreadableConfig .workspace .. => "WORKSPACE_PARSE_ERROR"
  | unreadableConfig .project .. => "PROJECT_CONFIG_PARSE_ERROR"
  | workspaceNotRecord _ => "WORKSPACE_PROJECTS_INVALID"
  | projectsMissing _ => "WORKSPACE_PROJECTS_INVALID"
  | unsupportedEntry _ => "WORKSPACE_PROJECTS_INVALID"
  | projectConfigNotFound .. => "PROJECT_CONFIG_NOT_FOUND"
  | projectConfigNotRecord .. => "PROJECT_CONFIG_INVALID"
  | rootMissing .. => "PROJECT_CONFIG_INVALID"
  | outsideWorkspace .. => "INVALID_PATH"

def message : WorkspaceError → String
  | workspaceNotFound root => "Could not find a workspace config in \"" ++ root ++ "\"."
  | unreadableConfig _ path cause =>
      "Failed to parse JSON file \"" ++ path ++ "\": " ++ cause.message
  | workspaceNotRecord config => "Workspace config \"" ++ config ++ "\" is not a JSON object."
  | projectsMissing config =>
      "Workspace config \"" ++ config ++ "\" is missing a \"projects\" object."
  | unsupportedEntry project =>
      "Project \"" ++ project ++ "\" has an unsupported configuration shape."
  | projectConfigNotFound project path =>
      "Project \"" ++ project ++ "\" references missing config file \"" ++ path ++ "\"."
  | projectConfigNotRecord project path =>
      "Project \"" ++ project ++ "\" config file \"" ++ path ++ "\" is not a JSON object."
  | rootMissing project _ => "Project \"" ++ project ++ "\" is missing a \"root\" path."
  | outsideWorkspace project _ =>
      "Project \"" ++ project ++ "\" resolved path outside workspace root."

def details : WorkspaceError → List (String × String)
  | workspaceNotFound _ => [("checkedFiles", ", ".intercalate candidates)]
  | unreadableConfig _ path _ => [("filePath", path)]
  | workspaceNotRecord config => [("workspaceConfigPath", config)]
  | projectsMissing config => [("workspaceConfigPath", config)]
  | unsupportedEntry project => [("project", project)]
  | projectConfigNotFound project path => [("project", project), ("configFilePath", path)]
  | projectConfigNotRecord project path => [("project", project), ("configFilePath", path)]
  | rootMissing project config => [("project", project), ("configFilePath", config)]
  | outsideWorkspace project target => [("project", project), ("targetPath", target)]

end WorkspaceError

end WorkspaceGraph
