import WorkspaceGraph.Workspace.Project
/-!
Ownership and aliases. A path is owned by the project with the longest root around it. An alias
rule gives the imports that begin with its base to a project; rules stand in the order in which
they are tried, the most specific first.
-/

namespace WorkspaceGraph

/-! ## Ownership -/

namespace Project

def precedes (left right : Project) : Bool :=
  if left.absoluteRootPath.length == right.absoluteRootPath.length then left.name ≤ right.name
  else right.absoluteRootPath.length < left.absoluteRootPath.length

def insertByRoot (project : Project) : List Project → List Project
  | [] => [project]
  | next :: rest =>
      if precedes project next then project :: next :: rest
      else next :: insertByRoot project rest

def sortByRoot : List Project → List Project
  | [] => []
  | project :: rest => insertByRoot project (sortByRoot rest)

def owner? (path : String) (projects : List Project) : Option String :=
  let path := Path.absoluteForm path
  (projects.find? fun project => Path.isWithin path project.absoluteRootPath).map (·.name)

end Project

/-! ## Rules -/

structure AliasRule where
  base : String
  project : String
deriving DecidableEq, Repr

namespace AliasRule

def isMatch (rule : AliasRule) (specifier : String) : Bool :=
  specifier == rule.base || (rule.base.toList ++ ['/']).isPrefixOf specifier.toList

/-- The files path mappings are read from; later ones overwrite earlier ones. -/
def mappingFiles : List String := ["tsconfig.base.json", "tsconfig.json"]

def mappingsOf (config : Json) : List (String × Json) :=
  (((config.field? "compilerOptions").bind (·.field? "paths")).bind (·.record?)).getD []

def mergeMappings (known added : List (String × Json)) : List (String × Json) :=
  added.foldl (fun fields mapping => Json.assign mapping.1 mapping.2 fields) known

def loadMappingsFrom (tree : FileTree) (root : String) (known : List (String × Json)) :
    List String → Except WorkspaceError (List (String × Json))
  | [] => .ok known
  | file :: rest =>
      let path := Path.join root file
      match tree.readText? path with
      | none => loadMappingsFrom tree root known rest
      | some text => do
          let config ← readConfig .workspace path text
          loadMappingsFrom tree root (mergeMappings known (mappingsOf config)) rest

def loadMappings (tree : FileTree) (root : String) :
    Except WorkspaceError (List (String × Json)) :=
  loadMappingsFrom tree root [] mappingFiles

def baseOf? (pattern : String) : Option String :=
  if (Text.trimmed? pattern).isNone then none
  else some ((Project.withoutEnding? pattern "/*").getD pattern)

/-- The characters without a slash and asterisks at their end or before a final line feed. -/
def dropWildcard (chars : List Char) : List Char :=
  let (body, tail) := Path.splitFinalNewline chars
  let stem := Text.dropEndWhile (· == '*') body
  if stem.length < body.length && stem.getLast? == some '/' then stem.dropLast ++ tail else chars

/-- The project that owns the target of a mapping. `projects` are in order of ownership. -/
def targetOwner? (root : String) (target : Json) (projects : List Project) : Option String :=
  match target with
  | .text target =>
      match Path.dropFinalSlash (dropWildcard (Path.forwardSlashes target.toList)) with
      | [] => none
      | chars => Project.owner? (Path.resolve root [String.ofList chars]) projects
  | _ => none

def ofMapping? (root : String) (projects : List Project) (mapping : String × Json) :
    Option AliasRule :=
  match mapping.2 with
  | .list targets =>
      match baseOf? mapping.1 with
      | none => none
      | some base =>
          if base.isEmpty then none
          else (targets.findSome? fun target => targetOwner? root target projects).map (⟨base, ·⟩)
  | _ => none

def precedes (left right : AliasRule) : Bool :=
  if left.base.length == right.base.length then left.base ≤ right.base
  else right.base.length < left.base.length

def insertInOrder (rule : AliasRule) : List AliasRule → List AliasRule
  | [] => [rule]
  | next :: rest =>
      if precedes rule next then rule :: next :: rest else next :: insertInOrder rule rest

def sort : List AliasRule → List AliasRule
  | [] => []
  | rule :: rest => insertInOrder rule (sort rest)

def dropRepeated : List AliasRule → List AliasRule
  | [] => []
  | [rule] => [rule]
  | rule :: next :: rest =>
      if rule == next then dropRepeated (next :: rest) else rule :: dropRepeated (next :: rest)

def ofMappings (root : String) (projects : List Project) (mappings : List (String × Json)) :
    List AliasRule :=
  dropRepeated (sort (mappings.filterMap (ofMapping? root projects)))

def load (tree : FileTree) (root : String) (projects : List Project) :
    Except WorkspaceError (List AliasRule) :=
  (loadMappings tree root).map (ofMappings root projects)

end AliasRule

end WorkspaceGraph
