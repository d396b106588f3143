import WorkspaceGraph.Json.Value
import WorkspaceGraph.Text.Quoted
/-!
How values are shown inside messages: a text alone is shown as it is, and inside a list or a record
between quotes.
-/

namespace WorkspaceGraph.Json

def commaSeparated : List String → String := ", ".intercalate

mutual
def displayInner : Json → String
  | null => "None"
  | bool value => if value then "True" else "False"
  | int value => toString value
  | real value => value.text "inf" "nan"
  | text value => Text.quoted value
  | list items => "[" ++ commaSeparated (displayItems items) ++ "]"
  | record fields => "\x7b" ++ commaSeparated (displayFields fields) ++ "\x7d"

def displayItems : List Json → List String
  | [] => []
  | item :: rest => displayInner item :: displayItems rest

def displayFields : List (String × Json) → List String
  | [] => []
  | (name, value) :: rest =>
      (Text.quoted name ++ ": " ++ displayInner value) :: displayFields rest
end

def display : Json → String
  | text value => value
  | other => displayInner other

end WorkspaceGraph.Json
