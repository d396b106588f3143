import WorkspaceGraph.Source.Pattern
import WorkspaceGraph.Text.Letter
import WorkspaceGraph.Order
/-!
Import specifiers of a source text. Three forms are recognised wherever their keyword stands at the
start of a word, also in comments and texts: `import "x"` and `import … from "x"`,
`export … from "x"`, and `import("x")`. Between keyword and quote there is no other quote, so the
first quote after the keyword decides.
-/

namespace WorkspaceGraph.Source.Import

def clause (chars : List Char) : List Char × List Char := chars.span (!isQuote ·)

def isGap (chars : List Char) : Bool := !chars.isEmpty && chars.all Text.isBlank

/-- Whether a clause is a blank, at least `least` characters, a blank, the word `from` and
blanks. -/
def endsInFrom (least : Nat) (clause : List Char) : Bool :=
  let trimmed := Text.dropEndWhile Text.isBlank clause
  trimmed.length < clause.length && "from".toList.isSuffixOf trimmed &&
    (let before := trimmed.take (trimmed.length - 4)
     least + 2 ≤ before.length && before.head?.any Text.isBlank &&
       before.getLast?.any Text.isBlank)

/-- `import "x"`, with or without a clause that ends in `from`. -/
def plain (chars : List Char) : Option (List Char × List Char) := do
  let rest ← afterWord? "import" chars
  let (clause, rest) := clause rest
  if isGap clause || endsInFrom 1 clause then quoted? rest else none

/-- `export … from "x"`. -/
def reexport (chars : List Char) : Option (List Char × List Char) := do
  let rest ← afterWord? "export" chars
  let (clause, rest) := clause rest
  if endsInFrom 0 clause then quoted? rest else none

/-- `import("x")`. -/
def dynamic (chars : List Char) : Option (List Char × List Char) := do
  let rest ← afterWord? "import" chars
  let rest ← afterChar? '(' (Text.skipBlanks rest)
  let (specifier, rest) ← quoted? (Text.skipBlanks rest)
  let rest ← afterChar? ')' (Text.skipBlanks rest)
  some (specifier, rest)

/-- What a recogniser captures at the starts of words, from left to right and without overlap.
`skip` characters still belong to the last match; `inWord` says whether the character before is a
word character. -/
def captures (recognise : List Char → Option (List Char × List Char)) :
    Nat → Bool → List Char → List (List Char)
  | _, _, [] => []
  | skip + 1, _, char :: rest => captures recognise skip (Text.isWord char) rest
  | 0, inWord, char :: rest =>
      match if inWord then none else recognise (char :: rest) with
      | some (found, after) =>
          found :: captures recognise (rest.length - after.length) (Text.isWord char) rest
      | none => captures recognise 0 (Text.isWord char) rest

def specifiersOf (recognise : List Char → Option (List Char × List Char)) (content : List Char) :
    List String :=
  (captures recognise 0 false content).map String.ofList

def specifiers (content : String) : List String :=
  let chars := content.toList
  Order.distinct (specifiersOf plain chars ++ specifiersOf reexport chars ++
    specifiersOf dynamic chars)

end WorkspaceGraph.Source.Import
