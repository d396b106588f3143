import WorkspaceGraph.Text.Printable
/-!
A text between quotes, for messages. Single quotes are used unless the text has a single quote and
no double one; the quote in use and the backslash are escaped, and characters that are not
printable are written by their code.
-/

namespace WorkspaceGraph.Text

def hexDigits : Nat → Nat → List Char
  | 0, _ => []
  | count + 1, value => hexDigits count (value / 16) ++ [Nat.digitChar (value % 16)]

namespace Quoted

def codeEscape (char : Char) : List Char :=
  if char.toNat < 0x100 then '\\' :: 'x' :: hexDigits 2 char.toNat
  else if char.toNat < 0x10000 then '\\' :: 'u' :: hexDigits 4 char.toNat
  else '\\' :: 'U' :: hexDigits 8 char.toNat

def encodeChar (quote char : Char) : List Char :=
  if char == quote || char == '\\' then ['\\', char]
  else if char == '\n' then ['\\', 'n']
  else if char == '\r' then ['\\', 'r']
  else if char == '\t' then ['\\', 't']
  else if isPrintable char then [char]
  else codeEscape char

def quoteFor (chars : List Char) : Char :=
  if chars.contains '\'' && !chars.contains '"' then '"' else '\''

end Quoted

def quoted (text : String) : String :=
  let chars := text.toList
  let quote := Quoted.quoteFor chars
  String.ofList (quote :: chars.flatMap (Quoted.encodeChar quote) ++ [quote])

end WorkspaceGraph.Text
