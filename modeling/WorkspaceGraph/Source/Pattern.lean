import WorkspaceGraph.Text.Blank
/-!
Recognising patterns in source text. A recogniser looks at the text from one place on and says what
it captures there and what follows. Searching tries the places from left to right.
-/

namespace WorkspaceGraph.Source

def afterWord? (word : String) (chars : List Char) : Option (List Char) :=
  if word.toList.isPrefixOf chars then some (chars.drop word.length) else none

def afterChar? (char : Char) : List Char → Option (List Char)
  | first :: rest => if first == char then some rest else none
  | [] => none

def afterBlanks? : List Char → Option (List Char)
  | char :: rest => if Text.isBlank char then some (Text.skipBlanks rest) else none
  | [] => none

def isQuote (char : Char) : Bool := char == '\'' || char == '"' || char == '\x60'

/-- A quoted text that is not empty, and what follows it. Any quote may close what another one
opened. -/
def quoted? : List Char → Option (List Char × List Char)
  | quote :: rest =>
      if isQuote quote then
        let (content, after) := rest.span (!isQuote ·)
        match after with
        | _ :: after => if content.isEmpty then none else some (content, after)
        | [] => none
      else none
  | [] => none

def search {α : Type} (recognise : List Char → Option α) : List Char → Option α
  | [] => recognise []
  | char :: rest =>
      match recognise (char :: rest) with
      | some found => some found
      | none => search recognise rest

end WorkspaceGraph.Source
