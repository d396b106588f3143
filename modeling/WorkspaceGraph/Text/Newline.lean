import WorkspaceGraph.Text.Utf8
/-!
Text files. Whichever way a line is ended in the file, its text has a line feed there.
-/

namespace WorkspaceGraph.Text

/-- A carriage return, alone or before a line feed, becomes a line feed. -/
def unifyNewlines : List Char → List Char
  | [] => []
  | '\r' :: '\n' :: rest => '\n' :: unifyNewlines rest
  | '\r' :: rest => '\n' :: unifyNewlines rest
  | char :: rest => char :: unifyNewlines rest

def ofFileLenient (bytes : List UInt8) : String :=
  String.ofList (unifyNewlines (Utf8.decodeLenient bytes).toList)

def ofFile? (bytes : List UInt8) : Option String :=
  (Utf8.decode? bytes).map fun text => String.ofList (unifyNewlines text.toList)

end WorkspaceGraph.Text
