import WorkspaceGraph.Number.Shortest
/-!
JSON values. Whole numbers and floating-point numbers are different values, and the fields of a
record keep the order in which they were written.
-/

namespace WorkspaceGraph

inductive Json
  | null
  | bool (value : Bool)
  | int (value : Int)
  | real (value : Binary64)
  | text (value : String)
  | list (items : List Json)
  | record (fields : List (String × Json))
deriving Inhabited, Repr

namespace Json

def lookup (name : String) : List (String × Json) → Option Json
  | [] => none
  | (key, value) :: rest => if key == name then some value else lookup name rest

/-- Give a field a value: in its place if the name is there, and otherwise at the end. -/
def assign (name : String) (value : Json) : List (String × Json) → List (String × Json)
  | [] => [(name, value)]
  | (key, old) :: rest =>
      if key == name then (name, value) :: rest else (key, old) :: assign name value rest

/-- Fields with distinct names: of repeated names the first keeps its place and the last its
value. -/
def ofFields (fields : List (String × Json)) : List (String × Json) :=
  fields.foldl (fun known field => assign field.1 field.2 known) []

def field? (name : String) : Json → Option Json
  | record fields => lookup name fields
  | _ => none

def text? : Json → Option String
  | text value => some value
  | _ => none

def list? : Json → Option (List Json)
  | list items => some items
  | _ => none

def record? : Json → Option (List (String × Json))
  | record fields => some fields
  | _ => none

def texts (values : List String) : Json := list (values.map text)

def textOrNull : Option String → Json
  | some value => text value
  | none => null

def boolOrNull : Option Bool → Json
  | some value => bool value
  | none => null

def nat (value : Nat) : Json := int value

def insertField (field : String × Json) : List (String × Json) → List (String × Json)
  | [] => [field]
  | next :: rest =>
      if field.1 ≤ next.1 then field :: next :: rest else next :: insertField field rest

def sortFields : List (String × Json) → List (String × Json)
  | [] => []
  | field :: rest => insertField field (sortFields rest)

mutual
def sorted : Json → Json
  | list items => list (sortedItems items)
  | record fields => record (sortFields (sortedFields fields))
  | other => other

def sortedItems : List Json → List Json
  | [] => []
  | item :: rest => sorted item :: sortedItems rest

def sortedFields : List (String × Json) → List (String × Json)
  | [] => []
  | (name, value) :: rest => (name, sorted value) :: sortedFields rest
end

end Json

end WorkspaceGraph
