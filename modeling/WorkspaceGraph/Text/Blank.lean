/-!
Blank characters: the white space of Unicode together with the four separator controls. A text is
trimmed by dropping the blanks at both ends, and collapsed by writing one space for every run of
blanks.
-/

namespace WorkspaceGraph.Text

/-- The blank characters. The zero-width space, the byte order mark and NUL are not among them. -/
def isBlank (char : Char) : Bool :=
  let code := char.toNat
  (0x09 ≤ code && code ≤ 0x0D) || (0x1C ≤ code && code ≤ 0x20) || code == 0x85 || code == 0xA0 ||
    code == 0x1680 || (0x2000 ≤ code && code ≤ 0x200A) || code == 0x2028 || code == 0x2029 ||
    code == 0x202F || code == 0x205F || code == 0x3000

def skipBlanks (chars : List Char) : List Char := chars.dropWhile isBlank

def dropEndWhile (drop : Char → Bool) (chars : List Char) : List Char :=
  (chars.reverse.dropWhile drop).reverse

def trimChars (chars : List Char) : List Char := dropEndWhile isBlank (skipBlanks chars)

/-- Write one space for every run of blanks. `pending` says that the character before was a blank,
whose space is already written. -/
def collapseChars (pending : Bool) : List Char → List Char
  | [] => []
  | char :: rest =>
      if isBlank char then
        if pending then collapseChars true rest else ' ' :: collapseChars true rest
      else char :: collapseChars false rest

def trim (text : String) : String := String.ofList (trimChars text.toList)

def trimmed? (text : String) : Option String :=
  let rest := trim text
  if rest.isEmpty then none else some rest

def collapse (text : String) : String :=
  String.ofList (trimChars (collapseChars false text.toList))

def takeChars (count : Nat) (text : String) : String := String.ofList (text.toList.take count)

def abbreviate (limit keep : Nat) (text : String) : String :=
  if limit < text.length then takeChars keep text ++ "..." else text

end WorkspaceGraph.Text
