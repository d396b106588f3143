import WorkspaceGraph.Json.Value
/-!
Checking values against a schema. A check yields the value meant or all problems, each at its place
in the value; problems come in the order in which a schema names its fields.
-/

namespace WorkspaceGraph.Schema

inductive Fault
  | missing
  | notText
  | notList
  | notRecord (model : String)
  | notVersion
  | notOneOf (allowed : List String)
  | notBoolText
  | notBool
  | notIntText
deriving DecidableEq, Repr

def choiceText : List String → String
  | [] => ""
  | [only] => "'" ++ only ++ "'"
  | [first, last] => "'" ++ first ++ "' or '" ++ last ++ "'"
  | first :: rest => "'" ++ first ++ "', " ++ choiceText rest

def Fault.kind : Fault → String
  | missing => "missing"
  | notText => "string_type"
  | notList => "list_type"
  | notRecord _ => "model_type"
  | notVersion => "literal_error"
  | notOneOf _ => "enum"
  | notBoolText => "bool_parsing"
  | notBool => "bool_type"
  | notIntText => "int_parsing"

def Fault.message : Fault → String
  | missing => "Field required"
  | notText => "Input should be a valid string"
  | notList => "Input should be a valid list"
  | notRecord model => "Input should be a valid dictionary or instance of " ++ model
  | notVersion => "Input should be 1"
  | notOneOf allowed => "Input should be " ++ choiceText allowed
  | notBoolText => "Input should be a valid boolean, unable to interpret input"
  | notBool => "Input should be a valid boolean"
  | notIntText => "Input should be a valid integer, unable to parse string as an integer"

structure Problem where
  place : List String
  fault : Fault
deriving DecidableEq, Repr

def Problem.location (problem : Problem) : String := ".".intercalate problem.place

def Problem.message (problem : Problem) : String :=
  if problem.location.isEmpty then problem.fault.message
  else problem.location ++ ": " ++ problem.fault.message

inductive Checked (α : Type u)
  | valid (value : α)
  | invalid (problems : List Problem)
deriving Repr

namespace Checked

def map {α β : Type u} (transform : α → β) : Checked α → Checked β
  | valid value => valid (transform value)
  | invalid problems => invalid problems

def ap {α β : Type u} (function : Checked (α → β)) (argument : Checked α) : Checked β :=
  match function, argument with
  | valid function, valid argument => valid (function argument)
  | valid _, invalid problems => invalid problems
  | invalid problems, valid _ => invalid problems
  | invalid first, invalid second => invalid (first ++ second)

instance : Functor Checked where
  map := map

instance : Seq Checked where
  seq function argument := ap function (argument ())

def fail {α : Type u} (fault : Fault) : Checked α := invalid [⟨[], fault⟩]

def within {α : Type u} (part : String) : Checked α → Checked α
  | valid value => valid value
  | invalid problems =>
      invalid (problems.map fun problem => { problem with place := part :: problem.place })

end Checked

/-! ## Checks -/

abbrev Check (α : Type) := Json → Checked α

def text : Check String
  | .text value => .valid value
  | _ => .fail .notText

def nullable {α : Type} (check : Check α) : Check (Option α)
  | .null => .valid none
  | value => (check value).map some

def items {α : Type} (check : Check α) (index : Nat) : List Json → Checked (List α)
  | [] => .valid []
  | item :: rest =>
      (((check item).within (toString index)).map List.cons).ap (items check (index + 1) rest)

def list {α : Type} (check : Check α) : Check (List α)
  | .list values => items check 0 values
  | _ => .fail .notList

def trueWords : List String := ["1", "t", "true", "on", "y", "yes"]

def falseWords : List String := ["0", "f", "false", "off", "n", "no"]

def boolOfText? (text : String) : Option Bool :=
  let text := String.ofList (text.toList.map Char.toLower)
  if trueWords.contains text then some true
  else if falseWords.contains text then some false
  else none

def isSmallWhole (value : Binary64) : Bool :=
  match value.fraction? with
  | some (numerator, denominator) =>
      numerator % denominator == 0 && numerator.natAbs < Nat.pow 2 63 * denominator
  | none => false

def bool : Check Bool
  | .bool value => .valid value
  | .text value =>
      match boolOfText? value with
      | some meant => .valid meant
      | none => .fail .notBoolText
  | .int value =>
      if value == 0 then .valid false
      else if value == 1 then .valid true
      else if -(Int.pow 2 63) ≤ value && value < Int.pow 2 63 then .fail .notBoolText
      else .fail .notBool
  | .real value =>
      if value.beqInt 0 then .valid false
      else if value.beqInt 1 then .valid true
      else if isSmallWhole value then .fail .notBoolText
      else .fail .notBool
  | _ => .fail .notBool

def choice {α : Type} (ofText? : String → Option α) (allowed : List String) : Check α
  | .text value =>
      match ofText? value with
      | some meant => .valid meant
      | none => .fail (.notOneOf allowed)
  | _ => .fail (.notOneOf allowed)

/-- Whether a value is the number one: the whole number, the floating-point number or the truth
value. -/
def isOne : Json → Bool
  | .bool value => value
  | .int value => value == 1
  | .real value => value.beqInt 1
  | _ => false

def version : Check Unit := fun value => if isOne value then .valid () else .fail .notVersion

/-! ## Fields -/

/-- The names of a field: the one it is written with, and another it may also be given by. -/
structure FieldName where
  name : String
  other : String
deriving DecidableEq, Repr

def FieldName.single (name : String) : FieldName := ⟨name, name⟩

def FieldName.find (field : FieldName) (fields : List (String × Json)) : Option (String × Json) :=
  match Json.lookup field.name fields with
  | some value => some (field.name, value)
  | none => (Json.lookup field.other fields).map fun value => (field.other, value)

def required {α : Type} (field : FieldName) (check : Check α) (fields : List (String × Json)) :
    Checked α :=
  match field.find fields with
  | some (name, value) => (check value).within name
  | none => (Checked.fail .missing).within field.name

def optional {α : Type} (field : FieldName) (default : α) (check : Check α)
    (fields : List (String × Json)) : Checked α :=
  match field.find fields with
  | some (name, value) => (check value).within name
  | none => .valid default

def record {α : Type} (model : String) (check : List (String × Json) → Checked α) : Check α
  | .record fields => check fields
  | _ => .fail (.notRecord model)

end WorkspaceGraph.Schema
