import WorkspaceGraph.Json.Value
import WorkspaceGraph.Text.Quoted
/-!
Writing JSON. A style says what stands between items and after names, whether items stand on lines
of their own, and whether characters beyond the printable ones of ASCII are written as they are or
by the codes of their 16-bit units.
-/

namespace WorkspaceGraph.Json

structure Style where
  separator : String
  colon : String
  /-- The number of spaces a nested line is indented by, if items have lines of their own. -/
  indent : Option Nat
  /-- Whether only the printable characters of ASCII are written as they are. -/
  asciiOnly : Bool
deriving DecidableEq, Repr

namespace Style

/-- No spaces, characters as they are: the form that is fingerprinted. -/
def compact : Style := ⟨",", ":", none, false⟩

/-- A space after commas and colons, ASCII only: the form that is sent. -/
def spaced : Style := ⟨", ", ": ", none, true⟩

/-- A space after commas and colons, characters as they are: the form of log records. -/
def record : Style := ⟨", ", ": ", none, false⟩

/-- Each item on its own line, indented by two spaces: the form of files. -/
def indented : Style := ⟨",", ": ", some 2, false⟩

end Style

namespace Writer

def unitEscape (unit : Nat) : List Char := '\\' :: 'u' :: Text.hexDigits 4 unit

def codeEscape (char : Char) : List Char :=
  if char.toNat < 0x10000 then unitEscape char.toNat
  else
    let offset := char.toNat - 0x10000
    unitEscape (0xD800 + offset / 0x400) ++ unitEscape (0xDC00 + offset % 0x400)

def encodeChar (asciiOnly : Bool) (char : Char) : List Char :=
  match char with
  | '"' => ['\\', '"']
  | '\\' => ['\\', '\\']
  | '\x08' => ['\\', 'b']
  | '\x0c' => ['\\', 'f']
  | '\n' => ['\\', 'n']
  | '\r' => ['\\', 'r']
  | '\t' => ['\\', 't']
  | _ =>
      if char.toNat < 0x20 || (asciiOnly && 0x7E < char.toNat) then codeEscape char else [char]

def quote (asciiOnly : Bool) (value : String) : List Char :=
  '"' :: value.toList.flatMap (encodeChar asciiOnly) ++ ['"']

def newline (style : Style) (depth : Nat) : List Char :=
  match style.indent with
  | none => []
  | some width => '\n' :: List.replicate (width * depth) ' '

mutual
def write (style : Style) (depth : Nat) : Json → List Char
  | .null => "null".toList
  | .bool true => "true".toList
  | .bool false => "false".toList
  | .int value => (toString value).toList
  | .real value => (value.text "Infinity" "NaN").toList
  | .text value => quote style.asciiOnly value
  | .list [] => ['[', ']']
  | .list (item :: rest) =>
      '[' :: newline style (depth + 1) ++ write style (depth + 1) item ++
        writeItems style (depth + 1) rest ++ newline style depth ++ [']']
  | .record [] => ['\x7b', '\x7d']
  | .record ((name, value) :: rest) =>
      '\x7b' :: newline style (depth + 1) ++ quote style.asciiOnly name ++ style.colon.toList ++
        write style (depth + 1) value ++ writeFields style (depth + 1) rest ++
        newline style depth ++ ['\x7d']

def writeItems (style : Style) (depth : Nat) : List Json → List Char
  | [] => []
  | item :: rest =>
      style.separator.toList ++ newline style depth ++ write style depth item ++
        writeItems style depth rest

def writeFields (style : Style) (depth : Nat) : List (String × Json) → List Char
  | [] => []
  | (name, value) :: rest =>
      style.separator.toList ++ newline style depth ++ quote style.asciiOnly name ++
        style.colon.toList ++ write style depth value ++ writeFields style depth rest
end

end Writer

def render (style : Style) (value : Json) : String := String.ofList (Writer.write style 0 value)

/-- The text that is the same for all orders of fields: fields by name, no spaces. -/
def stableText (value : Json) : String := render .compact value.sorted

end WorkspaceGraph.Json
