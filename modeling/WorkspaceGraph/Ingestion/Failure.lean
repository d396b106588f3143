import WorkspaceGraph.Store.Error
import WorkspaceGraph.Text.Blank
import WorkspaceGraph.Text.Case
/-!
How a failed attempt is recorded: by a code of capitals, digits and underscores, and by a message
of one line. Both have a greatest length and a default.
-/

namespace WorkspaceGraph

structure Failure where
  code : String
  message : String
deriving DecidableEq, Repr

namespace Failure

def defaultCode : String := "INGESTION_FAILED"

def defaultMessage : String := "Scanner snapshot ingestion failed."

def codeLimit : Nat := 64

def messageLimit : Nat := 512

def isCodeChar (char : Char) : Bool :=
  ('A' ≤ char && char ≤ 'Z') || ('0' ≤ char && char ≤ '9') || char == '_'

/-- Write one underscore for every run of characters that are none of codes. `pending` says that
the character before was such a one. -/
def replaceRuns (pending : Bool) : List Char → List Char
  | [] => []
  | char :: rest =>
      if isCodeChar char then char :: replaceRuns false rest
      else if pending then replaceRuns true rest
      else '_' :: replaceRuns true rest

def stripUnderscores (chars : List Char) : List Char :=
  Text.dropEndWhile (· == '_') (chars.dropWhile (· == '_'))

def normalizeCode (code : String) : String :=
  let chars := stripUnderscores (replaceRuns false (Text.capitalize (Text.trim code)).toList)
  if chars.isEmpty then defaultCode else String.ofList (chars.take codeLimit)

def normalizeMessage (message : String) : String :=
  let line := Text.collapse message
  if line.isEmpty then defaultMessage
  else Text.abbreviate messageLimit (messageLimit - 3) line

def record (code : Option String) (message : String) : Failure where
  code := (code.map normalizeCode).getD defaultCode
  message := normalizeMessage message

def ofError (error : StoreError) : Failure := record error.code? error.message

def unknown : Failure := ⟨defaultCode, defaultMessage⟩

end Failure

end WorkspaceGraph
