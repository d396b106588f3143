import WorkspaceGraph.CommandLine.IngestCommand
import WorkspaceGraph.CommandLine.ScanCommand
/-!
The program. Its first argument names a command, `scan` or `ingest`; the others are the command's.
Files are read before the command runs and written after it. There is no network here, so that
every request of `ingest` is lost.
-/

namespace WorkspaceGraph.Program

open CommandLine

/-- Everything below a directory that is on the disk. What is neither a file nor a directory is left
out, and so is what cannot be read. -/
partial def readDirectory (path : String) : IO FileTree := do
  let mut entries := []
  for entry in ← (← IO.FS.realPath path).readDir do
    let metadata ← entry.path.symlinkMetadata
    match metadata.type with
    | .dir =>
        let inner ← try readDirectory entry.path.toString catch _ => pure .empty
        entries := FileTree.setChild entry.fileName inner entries
    | .file =>
        let content ← try IO.FS.readBinFile entry.path catch _ => pure .empty
        entries := FileTree.setChild entry.fileName (.file content.toList) entries
    | _ => pure ()
  return .directory entries

def place (inner : FileTree) : List String → FileTree → FileTree
  | [], _ => inner
  | name :: rest, .directory entries =>
      .directory (FileTree.setChild name
        (place inner rest ((FileTree.child? name entries).getD .empty)) entries)
  | _, other => other

def load (path : String) (tree : FileTree) : IO FileTree := do
  try
    let inner ← readDirectory path
    return place inner ((Path.parts path).map String.ofList) tree
  catch _ => return tree

def scanCommand (directory : String) (arguments : List String) : Except Misuse ScanCommand :=
  (Arguments.parse ScanCommand.switches arguments).bind
    (ScanCommand.ofArguments .empty directory)

def scanTree (directory : String) (arguments : List String) : IO FileTree := do
  let tree ← load directory .empty
  match scanCommand directory arguments with
  | .ok command => load (Path.absolute directory command.workspace) tree
  | .error _ => return tree

def say (report : Report) : IO Unit := do
  IO.print report.output
  IO.eprint report.errors

def explain {α : Type} (switches : List Switch) (ending : Ending α) : IO Unit :=
  match ending with
  | .help => do
      for switch in switches do
        IO.println ("--" ++ switch.name)
  | .misused misuse => IO.eprintln misuse.message
  | .ran _ => pure ()

def save (directory : String) (arguments : List String) (tree : FileTree) : IO Unit := do
  match scanCommand directory arguments with
  | .ok { output := some output, .. } =>
      let path := Path.absolute directory output
      match tree.read path with
      | .ok content =>
          IO.FS.createDirAll (Path.directory path)
          IO.FS.writeBinFile path ⟨content.toArray⟩
      | .error _ => pure ()
  | _ => pure ()

def scan (directory : String) (arguments : List String) : IO UInt32 := do
  let tree ← scanTree directory arguments
  let ending := ScanCommand.call tree directory arguments
  explain ScanCommand.switches ending
  match ending with
  | .ran result =>
      if result.report.exit == 0 then save directory arguments result.tree
      say result.report
  | _ => pure ()
  return UInt32.ofNat (ending.exit fun result => result.report.exit)

def ingest (directory : String) (arguments : List String) : IO UInt32 := do
  let mut environment := []
  for name in IngestCommand.settings.flatMap IngestCommand.Setting.standIns do
    if let some value ← IO.getEnv name then
      environment := (name, value) :: environment
  let tree ← load directory .empty
  let ending := IngestCommand.call (fun name => environment.lookup name) tree directory
    (fun _ => .lost "ConnectError" "there is no network") arguments
  explain IngestCommand.switches ending
  if let .ran result := ending then say result.report
  return UInt32.ofNat (ending.exit fun result => result.report.exit)

end WorkspaceGraph.Program

def main (arguments : List String) : IO UInt32 := do
  let directory := (← IO.currentDir).toString
  match arguments with
  | "scan" :: rest => WorkspaceGraph.Program.scan directory rest
  | "ingest" :: rest => WorkspaceGraph.Program.ingest directory rest
  | _ =>
      IO.eprintln "Name a command: scan or ingest."
      return UInt32.ofNat WorkspaceGraph.CommandLine.misuseCode
