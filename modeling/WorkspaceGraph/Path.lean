import WorkspaceGraph.Text.Blank
/-!
Paths. A path is a text whose components are separated by slashes; an absolute one begins with a
slash. Paths are resolved by their text alone, without looking at any tree. A backslash is an
ordinary character while dots are resolved and becomes a slash in the result.
-/

namespace WorkspaceGraph.Path

/-! ## Components -/

def split : List Char → List (List Char)
  | [] => [[]]
  | char :: rest =>
      if char == '/' then [] :: split rest
      else
        match split rest with
        | [] => [[char]]
        | first :: more => (char :: first) :: more

def unsplit : List (List Char) → List Char
  | [] => []
  | [only] => only
  | first :: rest => first ++ '/' :: unsplit rest

/-- Resolve `.`, `..` and empty parts. `kept` holds the parts resolved so far, the last one first.
From the root there is no way up; a relative path may begin with `..`. -/
def resolveDots (rooted : Bool) : List (List Char) → List (List Char) → List (List Char)
  | kept, [] => kept.reverse
  | kept, part :: rest =>
      if part == [] || part == ['.'] then resolveDots rooted kept rest
      else if part == ['.', '.'] then
        match kept with
        | [] => resolveDots rooted (if rooted then [] else [part]) rest
        | last :: before =>
            if last == ['.', '.'] then resolveDots rooted (part :: kept) rest
            else resolveDots rooted before rest
      else resolveDots rooted (part :: kept) rest

/-! ## Normal forms -/

/-- The slashes a path is rooted by: exactly two stay two, any other number is one. -/
def rootSlashes : List Char → List Char
  | '/' :: '/' :: '/' :: _ => ['/']
  | '/' :: '/' :: _ => ['/', '/']
  | '/' :: _ => ['/']
  | _ => []

/-- The path with its dots resolved and its slashes single; nothing at all is `.`. -/
def normalizeChars (chars : List Char) : List Char :=
  let root := rootSlashes chars
  match root ++ unsplit (resolveDots (!root.isEmpty) [] (split chars)) with
  | [] => ['.']
  | result => result

def normalize (path : String) : String := String.ofList (normalizeChars path.toList)

def forwardSlashes (chars : List Char) : List Char :=
  chars.map fun char => if char == '\\' then '/' else char

def dropSlashes (chars : List Char) : List Char := Text.dropEndWhile (· == '/') chars

def absoluteFormChars (chars : List Char) : List Char :=
  match dropSlashes (forwardSlashes chars) with
  | [] => ['/']
  | result => result

def absoluteForm (path : String) : String := String.ofList (absoluteFormChars path.toList)

def splitFinalNewline (chars : List Char) : List Char × List Char :=
  match chars.reverse with
  | '\n' :: before => (before.reverse, ['\n'])
  | _ => (chars, [])

/-- The characters without one slash at their end or just before a final line feed. -/
def dropFinalSlash (chars : List Char) : List Char :=
  let (body, tail) := splitFinalNewline chars
  match body.reverse with
  | '/' :: before => before.reverse ++ tail
  | _ => chars

def dropDotSlash : List Char → List Char
  | '.' :: '/' :: rest => rest
  | chars => chars

/-- The form of a path relative to the workspace: forward slashes, no `./` in front, no slash at
the end; nothing at all is `.`. -/
def relativeFormChars (chars : List Char) : List Char :=
  match dropFinalSlash (dropDotSlash (forwardSlashes chars)) with
  | [] => ['.']
  | result => result

def relativeForm (path : String) : String := String.ofList (relativeFormChars path.toList)

/-! ## Combining paths -/

/-- One path after another; an absolute one starts afresh. -/
def joinChars (base segment : List Char) : List Char :=
  if segment.head? == some '/' then segment
  else if base.isEmpty || base.getLast? == some '/' then base ++ segment
  else base ++ '/' :: segment

def join (base segment : String) : String :=
  String.ofList (joinChars base.toList segment.toList)

def resolve (base : String) (segments : List String) : String :=
  absoluteForm (normalize (segments.foldl join base))

def absolute (directory path : String) : String :=
  normalize (if path.toList.head? == some '/' then path else join directory path)

def isWithin (path root : String) : Bool :=
  path == root || (dropSlashes root.toList ++ ['/']).isPrefixOf path.toList

def splitLast (chars : List Char) : List Char × List Char :=
  let last := chars.reverse.takeWhile (· != '/')
  (chars.take (chars.length - last.length), last.reverse)

def baseName (path : String) : String := String.ofList (splitLast path.toList).2

/-- Everything before the last component, without the slashes at its end unless it is slashes
only. -/
def directory (path : String) : String :=
  let head := (splitLast path.toList).1
  if head.all (· == '/') then String.ofList head else String.ofList (dropSlashes head)

def parts (path : String) : List (List Char) :=
  (split (normalizeChars path.toList)).filter (!·.isEmpty)

def stepsBetween : List (List Char) → List (List Char) → List (List Char)
  | start :: starts, target :: targets =>
      if start == target then stepsBetween starts targets
      else List.replicate (starts.length + 1) ['.', '.'] ++ target :: targets
  | starts, targets => List.replicate starts.length ['.', '.'] ++ targets

def steps (start target : String) : String :=
  match stepsBetween (parts start) (parts target) with
  | [] => "."
  | found => String.ofList (unsplit found)

def relativeTo (root path : String) : Option String :=
  if path.isEmpty then none else some (relativeForm (steps root path))

end WorkspaceGraph.Path
