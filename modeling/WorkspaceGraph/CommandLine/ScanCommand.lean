import WorkspaceGraph.CommandLine.Report
import WorkspaceGraph.Scan
import WorkspaceGraph.Snapshot.Wire
/-!
The command that scans a workspace and prints its snapshot, or writes it to a file.
-/

namespace WorkspaceGraph.CommandLine

/-- A call of the command. The paths are taken from the current directory. The snapshot does not
depend on the number of workers. -/
structure ScanCommand where
  workspace : String
  output : Option String
  workers : Option Int
  verbose : Bool
deriving DecidableEq, Repr

structure ScanResult where
  report : Report
  tree : FileTree
deriving Repr

namespace ScanCommand

def switches : List Switch := [
  ⟨"workspace", some 'w', true⟩,
  ⟨"output", some 'o', true⟩,
  ⟨"max-workers", none, true⟩,
  ⟨"verbose", some 'v', false⟩]

/-- The call with some arguments, made in a directory. The workspace is named by an option, or
else by a word, or else it is the directory. -/
def ofArguments (tree : FileTree) (directory : String) (arguments : Arguments) :
    Except Misuse ScanCommand := do
  let word ← arguments.singleWord?
  let output ← (arguments.value? "output").mapM (filePath tree directory "output")
  let workers ← (arguments.value? "max-workers").mapM (positive "max-workers")
  .ok {
    workspace := (firstGiven [arguments.value? "workspace", word]).getD directory
    output := if output = some "" then none else output
    workers
    verbose := arguments.has "verbose" }

def scannerName : String := "workspace-scanner"

def detailStyle : Json.Style := { Json.Style.indented with asciiOnly := true }

def errorLines (error : WorkspaceError) : List String := [
  "[" ++ scannerName ++ ":" ++ error.code ++ "] " ++ error.message,
  Json.render detailStyle
    (.record (error.details.map fun detail => (detail.1, .text detail.2)))]

def failureLine (failure : FileTree.Failure) : String :=
  "[" ++ scannerName ++ ":UNEXPECTED] " ++ failure.message

def threshold (command : ScanCommand) : Log.Level :=
  if command.verbose then .debug else .warning

def run (tree : FileTree) (directory : String) (command : ScanCommand) : ScanResult :=
  let root := Path.absolute directory command.workspace
  let log := logLines command.threshold (Scan.log tree root)
  match Scan.run tree root with
  | .error error => ⟨⟨1, "", lines (log ++ errorLines error)⟩, tree⟩
  | .ok snapshot =>
      match command.output with
      | none => ⟨⟨0, snapshot.render, lines log⟩, tree⟩
      | some output =>
          let path := Path.absolute directory output
          match tree.write path (Text.Utf8.encode snapshot.render) with
          | .error failure => ⟨⟨1, "", lines (log ++ [failureLine failure])⟩, tree⟩
          | .ok written =>
              let line := "[" ++ scannerName ++ "] Snapshot written to " ++ path
              ⟨⟨0, "", lines (log ++ [line])⟩, written⟩

def call (tree : FileTree) (directory : String) (arguments : List String) : Ending ScanResult :=
  CommandLine.call switches (ofArguments tree directory) (run tree directory) arguments

end ScanCommand

end WorkspaceGraph.CommandLine
