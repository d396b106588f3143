import WorkspaceGraph.FileTree
import WorkspaceGraph.Json.Reader
import WorkspaceGraph.Schema.Checked
/-!
Reading a snapshot back from its file. Only its outline is checked, since whoever receives the
snapshot checks the rest.
-/

namespace WorkspaceGraph.Client

inductive SnapshotFileError
  | unreadable (failure : FileTree.Failure)
  | malformedText
  | notJson (path : String) (cause : Json.ReadError)
  | notRecord
  | otherVersion
  | listMissing
deriving DecidableEq, Repr

namespace SnapshotFileError

def listFields : List String := ["projects", "libs", "components", "dependencies"]

def message : SnapshotFileError → String
  | unreadable failure => failure.message
  | malformedText => ""
  | notJson path cause => "Snapshot file " ++ path ++ " is not valid JSON: " ++ cause.message
  | notRecord => "Snapshot JSON must be an object."
  | otherVersion => "Snapshot schemaVersion must be 1."
  | listMissing =>
      "Snapshot JSON must include array fields: " ++ ", ".intercalate listFields ++ "."

end SnapshotFileError

def checkOutline (value : Json) : Except SnapshotFileError Json :=
  match value with
  | .record fields =>
      if ((Json.lookup "schemaVersion" fields).map Schema.isOne).getD false then
        if SnapshotFileError.listFields.all fun name =>
            ((Json.lookup name fields).bind Json.list?).isSome then .ok value
        else .error .listMissing
      else .error .otherVersion
  | _ => .error .notRecord

def parseSnapshot (path : String) (content : List UInt8) : Except SnapshotFileError Json :=
  match Text.ofFile? content with
  | none => .error .malformedText
  | some text =>
      match Json.parse text with
      | .error cause => .error (.notJson path cause)
      | .ok value => checkOutline value

def readSnapshot (tree : FileTree) (directory path : String) : Except SnapshotFileError Json :=
  if path.isEmpty then .error (.unreadable ⟨.notFound, path⟩)
  else
    match tree.read (Path.join directory path) with
    | .error failure => .error (.unreadable { failure with path })
    | .ok content => parseSnapshot path content

end WorkspaceGraph.Client
