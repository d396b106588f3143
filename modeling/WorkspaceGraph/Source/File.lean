import WorkspaceGraph.FileTree
import WorkspaceGraph.Order
/-!
Source files: the files below a directory that are scanned. The walk visits the entries of a
directory in the order of their names and stays out of ignored directories.
-/

namespace WorkspaceGraph.Source

def suffix : String := ".ts"

def ignoredSuffixes : List String := [".d.ts", ".spec.ts", ".stories.ts", ".test.ts"]

def ignoredDirectories : List String :=
  [".git", ".hg", ".idea", ".nx", ".vscode", "coverage", "dist", "node_modules", "tmp"]

def endsWith (text ending : String) : Bool := ending.toList.isSuffixOf text.toList

def isSourceFile (name : String) : Bool :=
  endsWith name suffix && !ignoredSuffixes.any (endsWith name)

def isIgnoredDirectory (name : String) : Bool := ignoredDirectories.contains name

structure Found where
  path : String
  content : List UInt8
deriving DecidableEq, Repr

def inOrder (visited : List (String × List Found)) : List Found :=
  (Order.sortOn (fun visit => [visit.1]) visited).flatMap (·.2)

mutual
def walkEntry (path name : String) : FileTree → List Found
  | .file content => if isSourceFile name then [⟨Path.join path name, content⟩] else []
  | .directory entries =>
      if isIgnoredDirectory name then [] else inOrder (visits (Path.join path name) entries)

def visits (path : String) : List (String × FileTree) → List (String × List Found)
  | [] => []
  | (name, entry) :: rest => (name, walkEntry path name entry) :: visits path rest
end

def walkEntries (path : String) (entries : List (String × FileTree)) : List Found :=
  inOrder (visits path entries)

/-- The source files below a directory, by the path it is given by. The limits to the lengths of
names and paths hold for the directory itself; what is below it is found whatever its length. -/
def filesBelow (tree : FileTree) (root : String) : Except FileTree.Failure (List Found) :=
  match tree.find root with
  | .ok (.directory entries) => .ok (walkEntries root entries)
  | .ok (.file _) => .error ⟨.notDirectory, root⟩
  | .error fault => .error ⟨fault, root⟩

end WorkspaceGraph.Source
