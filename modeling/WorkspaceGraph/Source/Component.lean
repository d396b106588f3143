import WorkspaceGraph.Source.Pattern
import WorkspaceGraph.Source.File
import WorkspaceGraph.Json.Value
/-!
Component metadata of a source text: the first `@Component({…})` block with its selector and its
standalone flag, and the name of the exported class that follows the first mention of `@Component`.
The block ends at the first closing brace that a closing parenthesis follows.
-/

namespace WorkspaceGraph.Source

structure Component where
  name : String
  className : Option String
  selector : Option String
  standalone : Option Bool
deriving DecidableEq, Repr

namespace Component

def marker : String := "@Component"

/-- Up to the first closing brace that a closing parenthesis follows. -/
def blockBody : List Char → Option (List Char)
  | [] => none
  | char :: rest =>
      if char == '\x7d' && (Text.skipBlanks rest).head? == some ')' then some []
      else (blockBody rest).map (char :: ·)

def block? (chars : List Char) : Option (List Char) := do
  let rest ← afterWord? marker chars
  let rest ← afterChar? '(' (Text.skipBlanks rest)
  let rest ← afterChar? '\x7b' (Text.skipBlanks rest)
  blockBody rest

def setting? (name : String) (chars : List Char) : Option (List Char) := do
  let rest ← afterWord? name chars
  let rest ← afterChar? ':' (Text.skipBlanks rest)
  some (Text.skipBlanks rest)

/-- `selector: "x"`. -/
def selector? (chars : List Char) : Option String := do
  let rest ← setting? "selector" chars
  let (content, _) ← quoted? rest
  some (String.ofList content)

/-- `standalone: true` or `standalone: false`. -/
def standalone? (chars : List Char) : Option Bool := do
  let rest ← setting? "standalone" chars
  if (afterWord? "true" rest).isSome then some true
  else if (afterWord? "false" rest).isSome then some false
  else none

def beginsIdentifier (char : Char) : Bool := char.isAlpha || char == '_'

def continuesIdentifier (char : Char) : Bool := char.isAlphanum || char == '_'

/-- `export class X`. -/
def exportedClass? (chars : List Char) : Option String := do
  let rest ← afterWord? "export" chars
  let rest ← afterBlanks? rest
  let rest ← afterWord? "class" rest
  let rest ← afterBlanks? rest
  match rest with
  | first :: _ =>
      if beginsIdentifier first then some (String.ofList (rest.takeWhile continuesIdentifier))
      else none
  | [] => none

/-- The class exported first after the first mention of a component. -/
def className? (chars : List Char) : Option String := do
  let rest ← search (afterWord? marker) chars
  search exportedClass? rest

/-- The runs of ASCII letters and digits. `current` is the run being read, backwards. -/
def segments (current : List Char) : List Char → List (List Char)
  | [] => if current.isEmpty then [] else [current.reverse]
  | char :: rest =>
      if char.isAlphanum then segments (char :: current) rest
      else if current.isEmpty then segments [] rest
      else current.reverse :: segments [] rest

def capitalizeFirst : List Char → List Char
  | [] => []
  | first :: rest => first.toUpper :: rest

/-- The name of a component whose class is unknown: the runs of letters and digits of the file's
name, each with a capital first letter. -/
def nameOfPath (path : String) : String :=
  let base := Path.baseName path
  let stem :=
    if endsWith base suffix then base.toList.take (base.length - suffix.length) else base.toList
  String.ofList ((segments [] stem).flatMap capitalizeFirst)

def extract? (content path : String) : Option Component :=
  let chars := content.toList
  (search block? chars).map fun body =>
    let className := className? chars
    { name := className.getD (nameOfPath path)
      className
      selector := search selector? body
      standalone := search standalone? body }

def toJson (component : Component) : Json :=
  .record [
    ("name", .text component.name),
    ("className", .textOrNull component.className),
    ("selector", .textOrNull component.selector),
    ("standalone", .boolOrNull component.standalone)]

end Component

end WorkspaceGraph.Source
