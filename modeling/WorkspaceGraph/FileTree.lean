import WorkspaceGraph.Path
import WorkspaceGraph.Text.Newline
import WorkspaceGraph.Text.Quoted
/-!
A tree of files. A directory holds its entries by name; the operations keep them in the order of
their names. Paths lead into a tree from its root, part by part: every part but the last has to be
a directory, also where a later `..` leaves it again.
-/

namespace WorkspaceGraph

inductive FileTree
  | file (content : List UInt8)
  | directory (entries : List (String × FileTree))
deriving Inhabited, Repr

namespace FileTree

def empty : FileTree := directory []

/-! ## Faults -/

inductive Fault
  | notFound
  | taken
  | notDirectory
  | isDirectory
  | nameTooLong
  | embeddedNul
deriving DecidableEq, Repr

def Fault.describe : Fault → String
  | notFound => "[Errno 2] No such file or directory"
  | taken => "[Errno 17] File exists"
  | notDirectory => "[Errno 20] Not a directory"
  | isDirectory => "[Errno 21] Is a directory"
  | nameTooLong => "[Errno 36] File name too long"
  | embeddedNul => "embedded null byte"

structure Failure where
  fault : Fault
  path : String
deriving DecidableEq, Repr

/-- The report of a failure; a path with a NUL is not shown. -/
def Failure.message (failure : Failure) : String :=
  match failure.fault with
  | .embeddedNul => failure.fault.describe
  | fault => fault.describe ++ ": " ++ Text.quoted failure.path

/-! ## Looking up -/

def child? (name : String) : List (String × FileTree) → Option FileTree
  | [] => none
  | (key, entry) :: rest => if key == name then some entry else child? name rest

def nameLimit : Nat := 255

def pathLimit : Nat := 4095

/-- Follow the parts of a path. `above` holds the directories around the current one, the nearest
first; above the root is the root itself. -/
def follow (above : List FileTree) (current : FileTree) : List (List Char) → Except Fault FileTree
  | [] => .ok current
  | part :: rest =>
      match current with
      | file _ => .error .notDirectory
      | directory entries =>
          if part == [] || part == ['.'] then follow above current rest
          else if part == ['.', '.'] then
            match above with
            | [] => follow [] current rest
            | outer :: more => follow more outer rest
          else
            let name := String.ofList part
            if nameLimit < name.utf8ByteSize then .error .nameTooLong
            else
              match child? name entries with
              | none => .error .notFound
              | some entry => follow (current :: above) entry rest

def find (tree : FileTree) (path : String) : Except Fault FileTree :=
  if path.toList.contains '\x00' then .error .embeddedNul
  else if pathLimit < path.utf8ByteSize then .error .nameTooLong
  else follow [] tree (Path.split path.toList)

def isDirectory (tree : FileTree) (path : String) : Bool :=
  match tree.find path with
  | .ok (directory _) => true
  | _ => false

def read (tree : FileTree) (path : String) : Except Failure (List UInt8) :=
  match tree.find path with
  | .ok (file content) => .ok content
  | .ok (directory _) => .error ⟨.isDirectory, path⟩
  | .error fault => .error ⟨fault, path⟩

def readText? (tree : FileTree) (path : String) : Option String :=
  match tree.find path with
  | .ok (file content) => some (Text.ofFileLenient content)
  | _ => none

/-! ## Changing -/

def setChild (name : String) (entry : FileTree) :
    List (String × FileTree) → List (String × FileTree)
  | [] => [(name, entry)]
  | (key, other) :: rest =>
      if name < key then (name, entry) :: (key, other) :: rest
      else if name = key then (name, entry) :: rest
      else (key, other) :: setChild name entry rest

def makeDirectories (path : String) : List String → FileTree → Except Failure FileTree
  | [], current =>
      match current with
      | directory entries => .ok (directory entries)
      | file _ => .error ⟨.taken, path⟩
  | name :: rest, current =>
      let inner := Path.join path name
      match current with
      | file _ => .error ⟨.notDirectory, inner⟩
      | directory entries =>
          if nameLimit < name.utf8ByteSize then .error ⟨.nameTooLong, inner⟩
          else
            match makeDirectories inner rest ((child? name entries).getD empty) with
            | .error failure => .error failure
            | .ok entry => .ok (directory (setChild name entry entries))

def setFile (content : List UInt8) (last : String) : List String → FileTree → FileTree
  | [], directory entries => directory (setChild last (file content) entries)
  | name :: rest, directory entries =>
      directory (setChild name
        (setFile content last rest ((child? name entries).getD empty)) entries)
  | _, other => other

def write (tree : FileTree) (path : String) (content : List UInt8) : Except Failure FileTree :=
  let names := (Path.parts path).map String.ofList
  match names.reverse with
  | [] => .error ⟨.isDirectory, path⟩
  | last :: before =>
      match makeDirectories "/" before.reverse tree with
      | .error failure => .error failure
      | .ok prepared =>
          match prepared.find path with
          | .ok (directory _) => .error ⟨.isDirectory, path⟩
          | .error .nameTooLong => .error ⟨.nameTooLong, path⟩
          | .error .embeddedNul => .error ⟨.embeddedNul, path⟩
          | _ => .ok (setFile content last before.reverse prepared)

end FileTree

end WorkspaceGraph
