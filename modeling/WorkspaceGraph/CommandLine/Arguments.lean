import WorkspaceGraph.FileTree
import WorkspaceGraph.Number.Whole
/-!
The arguments of a command. An option is written `--name`, or `-n` if it has a letter; its value
is the argument behind it, whatever that is, or follows an equals sign after the name, or the letter
at once. Letters without values can stand together behind one hyphen. All other arguments are words;
two hyphens say that only words follow.
-/

namespace WorkspaceGraph.CommandLine

structure Switch where
  name : String
  letter : Option Char
  takesValue : Bool
deriving DecidableEq, Repr

inductive Misuse
  | unknownOption (argument : String)
  | valueMissing (name : String)
  | valueUnexpected (name : String)
  | optionMissing (name : String)
  | notPositive (name value : String)
  | notOffered (name value : String)
  | isDirectory (name path : String)
  | extraWord (word : String)
deriving DecidableEq, Repr

def Misuse.message : Misuse → String
  | unknownOption argument => "There is no option " ++ argument ++ "."
  | valueMissing name => "Option --" ++ name ++ " needs a value."
  | valueUnexpected name => "Option --" ++ name ++ " takes no value."
  | optionMissing name => "Option --" ++ name ++ " is missing."
  | notPositive name value =>
      "Option --" ++ name ++ " needs a positive whole number, not " ++ value ++ "."
  | notOffered name value => "Option --" ++ name ++ " does not offer " ++ value ++ "."
  | isDirectory name path => "Option --" ++ name ++ " needs a file; " ++ path ++ " is a directory."
  | extraWord word => "There is one argument too many: " ++ word

structure Given where
  name : String
  value : Option String
deriving DecidableEq, Repr

structure Arguments where
  options : List Given
  words : List String
deriving DecidableEq, Repr

namespace Arguments

/-! ## Reading -/

/-- What one argument says: the options it gives, and the option whose value is the next
argument. -/
structure Reading where
  options : List Given
  waiting : Option String
deriving DecidableEq, Repr

/-- Read the letters behind one hyphen. What follows a letter that takes a value is the value. -/
def letters (switches : List Switch) : List Char → Except Misuse Reading
  | [] => .ok ⟨[], none⟩
  | char :: rest =>
      match switches.find? fun switch => switch.letter = some char with
      | none => .error (.unknownOption ("-" ++ char.toString))
      | some switch =>
          if switch.takesValue then
            .ok (if rest.isEmpty then ⟨[], some switch.name⟩
              else ⟨[⟨switch.name, some (String.ofList rest)⟩], none⟩)
          else (letters switches rest).map fun reading =>
            { reading with options := ⟨switch.name, none⟩ :: reading.options }

def named (switch : Switch) (value : Option String) : Except Misuse Reading :=
  match switch.takesValue, value with
  | true, none => .ok ⟨[], some switch.name⟩
  | false, some _ => .error (.valueUnexpected switch.name)
  | _, value => .ok ⟨[⟨switch.name, value⟩], none⟩

def valueBehind (chars : List Char) : Option String :=
  match chars.dropWhile (· != '=') with
  | [] => none
  | _ :: value => some (String.ofList value)

def read (switches : List Switch) (argument : List Char) : Except Misuse Reading :=
  match argument with
  | '-' :: '-' :: long =>
      let name := String.ofList (long.takeWhile (· != '='))
      match switches.find? fun switch => switch.name = name with
      | some switch => named switch (valueBehind long)
      | none => .error (.unknownOption ("--" ++ name))
  | _ => letters switches (argument.drop 1)

def isOption (argument : String) : Bool :=
  argument.startsWith "-" && argument != "-"

def addOptions (options : List Given) (arguments : Arguments) : Arguments :=
  { arguments with options := options ++ arguments.options }

def parseFrom (switches : List Switch) : Option String → List String → Except Misuse Arguments
  | none, [] => .ok ⟨[], []⟩
  | some name, [] => .error (.valueMissing name)
  | some name, value :: rest =>
      (parseFrom switches none rest).map (addOptions [⟨name, some value⟩])
  | none, argument :: rest =>
      if argument == "--" then .ok ⟨[], rest⟩
      else if isOption argument then
        match read switches argument.toList with
        | .error misuse => .error misuse
        | .ok reading =>
            (parseFrom switches reading.waiting rest).map (addOptions reading.options)
      else
        (parseFrom switches none rest).map fun arguments =>
          { arguments with words := argument :: arguments.words }

def parse (switches : List Switch) (arguments : List String) : Except Misuse Arguments :=
  parseFrom switches none arguments

/-! ## Asking -/

def value? (arguments : Arguments) (name : String) : Option String :=
  (arguments.options.reverse.find? fun given => given.name = name).bind Given.value

def has (arguments : Arguments) (name : String) : Bool :=
  arguments.options.any fun given => given.name = name

def singleWord? (arguments : Arguments) : Except Misuse (Option String) :=
  match arguments.words with
  | [] => .ok none
  | [word] => .ok (some word)
  | _ :: word :: _ => .error (.extraWord word)

end Arguments

/-! ## Values -/

def firstGiven (texts : List (Option String)) : Option String :=
  (texts.filterMap id).find? fun text => text != ""

def positive (name value : String) : Except Misuse Int :=
  match Whole.ofText? value with
  | some number => if 1 ≤ number then .ok number else .error (.notPositive name value)
  | none => .error (.notPositive name value)

/-- The path of a file, from a directory. There need not be a file, but there must not be a
directory; the empty path leads nowhere. -/
def filePath (tree : FileTree) (directory name path : String) : Except Misuse String :=
  if path != "" && tree.isDirectory (Path.join directory path) then
    .error (.isDirectory name path)
  else .ok path

end WorkspaceGraph.CommandLine
