/-!
Order. Lists are sorted by a key that is a list of texts, compared text by text in the order of
their characters' codes; entries with equal keys keep their order. A set of texts is written as the
strictly increasing list of its members.
-/

namespace WorkspaceGraph.Order

def insertOn {α : Type u} (key : α → List String) (entry : α) : List α → List α
  | [] => [entry]
  | next :: rest =>
      if key next < key entry then next :: insertOn key entry rest else entry :: next :: rest

/-- Sort by key; entries with equal keys stay in order. -/
def sortOn {α : Type u} (key : α → List String) : List α → List α
  | [] => []
  | entry :: rest => insertOn key entry (sortOn key rest)

def insertText (text : String) : List String → List String
  | [] => [text]
  | next :: rest =>
      if text < next then text :: next :: rest
      else if text = next then next :: rest
      else next :: insertText text rest

def distinct (texts : List String) : List String := texts.foldr insertText []

end WorkspaceGraph.Order
