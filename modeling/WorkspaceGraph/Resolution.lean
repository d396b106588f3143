import WorkspaceGraph.Alias
/-!
Resolving imports. A specifier that begins with a dot is a path from the importing file's directory
and goes to the project that owns it; any other goes to the first alias rule that matches.
-/

namespace WorkspaceGraph.Resolution

/-- The project an import leads to, if it is one of the workspace. `projects` are in order of
ownership. -/
def projectOf? (rules : List AliasRule) (projects : List Project) (file specifier : String) :
    Option String :=
  if specifier.toList.head? == some '.' then
    Project.owner? (Path.resolve (Path.directory file) [specifier]) projects
  else (rules.find? (·.isMatch specifier)).map (·.project)

def dependencies (rules : List AliasRule) (projects : List Project) (source file : String)
    (specifiers : List String) : List String :=
  Order.distinct
    ((specifiers.filterMap (projectOf? rules projects file)).filter (· != source))

end WorkspaceGraph.Resolution
