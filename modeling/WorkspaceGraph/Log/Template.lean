import WorkspaceGraph.Json.Display
/-!
Templates of messages. A template has places for arguments; a place begins with a percent sign and
ends with a letter that says how the argument is shown. In between there may be, in this order, a
name in brackets, flags, a least width, and a precision behind a point. Two percent signs stand for
one.
-/

namespace WorkspaceGraph.Log

structure Place where
  name : Option String
  flags : List Char
  width : Nat
  precision : Option Nat
  kind : Char
deriving DecidableEq, Repr

/-- Arguments that are still to be placed: one for every place, or the fields of a record, of which
places without a name can show the record once. -/
inductive Supply
  | inOrder (arguments : List Json)
  | byName (fields : List (String × Json)) (untouched : Bool)
deriving Repr

namespace Supply

/-- A single record that has fields supplies them by name. -/
def ofArguments : List Json → Supply
  | [.record (field :: fields)] => byName (field :: fields) true
  | arguments => inOrder arguments

def take? (name : Option String) : Supply → Option (Json × Supply)
  | inOrder (argument :: rest) => if name.isNone then some (argument, inOrder rest) else none
  | inOrder [] => none
  | byName fields untouched =>
      match name with
      | some name => (Json.lookup name fields).map fun value => (value, byName fields false)
      | none => if untouched then some (.record fields, byName fields false) else none

def isSpent : Supply → Bool
  | inOrder arguments => arguments.isEmpty
  | byName .. => true

end Supply

namespace Place

/-! ## Reading -/

def readName? : Nat → List Char → Option (List Char × List Char)
  | _, [] => none
  | 0, ')' :: rest => some ([], rest)
  | depth, char :: rest =>
      let depth := if char == '(' then depth + 1 else if char == ')' then depth - 1 else depth
      (readName? depth rest).map fun (name, after) => (char :: name, after)

def number (digits : List Char) : Nat :=
  digits.foldl (fun value digit => value * 10 + (digit.toNat - '0'.toNat)) 0

def isFlag (char : Char) : Bool := "-+ #0".toList.contains char

/-- Letters before the last one that tell the size of a number; they mean nothing. -/
def isSize (char : Char) : Bool := "hlL".toList.contains char

/-- Read a precision. A point alone means none at all. -/
def readPrecision : List Char → Option Nat × List Char
  | '.' :: rest => (some (number (rest.takeWhile Char.isDigit)), rest.dropWhile Char.isDigit)
  | chars => (none, chars)

def readFormat? (name : Option String) (chars : List Char) : Option (Place × List Char) :=
  let afterFlags := chars.dropWhile isFlag
  let (precision, rest) := readPrecision (afterFlags.dropWhile Char.isDigit)
  let rest := if rest.head?.any isSize then rest.drop 1 else rest
  match rest with
  | [] => none
  | kind :: rest =>
      some (⟨name, chars.takeWhile isFlag, number (afterFlags.takeWhile Char.isDigit), precision,
        kind⟩, rest)

def read? : List Char → Option (Place × List Char)
  | '(' :: rest => do
      let (name, rest) ← readName? 0 rest
      readFormat? (some (String.ofList name)) rest
  | chars => readFormat? none chars

def has (place : Place) (flag : Char) : Bool := place.flags.contains flag

/-! ## Showing -/

/-- Fill up to the least width: behind the text, or between sign and digits with zeros, or in front
with spaces. -/
def pad (place : Place) (sign body : String) (isNumber : Bool) : String :=
  let missing := place.width - sign.length - body.length
  let fill := fun (char : Char) => String.ofList (List.replicate missing char)
  if place.has '-' then sign ++ body ++ fill ' '
  else if isNumber && place.has '0' then sign ++ fill '0' ++ body
  else fill ' ' ++ sign ++ body

def sign (place : Place) (negative : Bool) : String :=
  if negative then "-" else if place.has '+' then "+" else if place.has ' ' then " " else ""

def cut (place : Place) (text : String) : String :=
  match place.precision with
  | some length => String.ofList (text.toList.take length)
  | none => text

def digits (place : Place) (base value : Nat) : String :=
  let digits := Nat.toDigits base value
  String.ofList (List.replicate (place.precision.getD 0 - digits.length) '0' ++ digits)

def integralPart? : Json → Option Int
  | .int value => some value
  | .bool value => some (if value then 1 else 0)
  | .real value => value.fraction?.map fun fraction => Int.tdiv fraction.1 fraction.2
  | _ => none

def whole? : Json → Option Int
  | .int value => some value
  | .bool value => some (if value then 1 else 0)
  | _ => none

def showWhole (place : Place) (base : Nat) (mark : String) (value : Int) : String :=
  let mark := if place.has '#' then mark else ""
  place.pad (place.sign (value < 0) ++ mark) (place.digits base value.natAbs) true

def real? (argument : Json) : Option Binary64 :=
  match argument with
  | .real value => some value
  | _ =>
      (whole? argument).bind fun value =>
        match Binary64.ofFraction (value < 0) value.natAbs 1 with
        | .infinite _ => none
        | number => some number

def defaultDecimals : Nat := 6

def showReal (place : Place) (value : Binary64) : String :=
  match value with
  | .nan => place.pad (place.sign false) "nan" true
  | .infinite negative => place.pad (place.sign negative) "inf" true
  | .finite negative .. =>
      let decimals := place.precision.getD defaultDecimals
      let fraction := value.fraction?.getD (0, 1)
      let scaled := Binary64.roundDiv (fraction.1.natAbs * Nat.pow 10 decimals) fraction.2
      let tail := Nat.toDigits 10 (scaled % Nat.pow 10 decimals)
      let tail := String.ofList (List.replicate (decimals - tail.length) '0' ++ tail)
      let point := if decimals == 0 then (if place.has '#' then "." else "") else "." ++ tail
      place.pad (place.sign negative) (toString (scaled / Nat.pow 10 decimals) ++ point) true

def character? : Json → Option Char
  | .text text =>
      match text.toList with
      | [char] => some char
      | _ => none
  | argument =>
      (whole? argument).bind fun value =>
        if 0 ≤ value && value.toNat.isValidChar then some (Char.ofNat value.toNat) else none

def asciiOnly (text : String) : String :=
  String.ofList (text.toList.flatMap fun char =>
    if char.toNat < 0x80 then [char] else Text.Quoted.codeEscape char)

def show? (place : Place) (argument : Json) : Option String :=
  match place.kind with
  | 's' => some (place.pad "" (place.cut argument.display) false)
  | 'r' => some (place.pad "" (place.cut argument.displayInner) false)
  | 'a' => some (place.pad "" (place.cut (asciiOnly argument.displayInner)) false)
  | 'c' => (character? argument).map fun char => place.pad "" char.toString false
  | 'd' => (integralPart? argument).map (place.showWhole 10 "")
  | 'i' => (integralPart? argument).map (place.showWhole 10 "")
  | 'u' => (integralPart? argument).map (place.showWhole 10 "")
  | 'o' => (whole? argument).map (place.showWhole 8 "0o")
  | 'x' => (whole? argument).map (place.showWhole 16 "0x")
  | 'X' => (whole? argument).map fun value =>
      String.ofList ((place.showWhole 16 "0X" value).toList.map Char.toUpper)
  | 'f' => (real? argument).map place.showReal
  | 'F' => (real? argument).map fun value =>
      String.ofList ((place.showReal value).toList.map Char.toUpper)
  | _ => none

def fill? (place : Place) (supply : Supply) : Option (String × Supply) := do
  let (argument, rest) ← supply.take? place.name
  let text ← place.show? argument
  some (text, rest)

end Place

/-- Fill the places of a template. All arguments have to be placed. `skip` characters still belong
to the last place. -/
def fillTemplate? : Nat → List Char → Supply → Option String
  | _, [], supply => if supply.isSpent then some "" else none
  | skip + 1, _ :: rest, supply => fillTemplate? skip rest supply
  | 0, '%' :: '%' :: rest, supply => (fillTemplate? 0 rest supply).map ("%" ++ ·)
  | 0, '%' :: rest, supply => do
      let (place, after) ← Place.read? rest
      let (text, supply) ← place.fill? supply
      let tail ← fillTemplate? (rest.length - after.length) rest supply
      some (text ++ tail)
  | 0, char :: rest, supply => (fillTemplate? 0 rest supply).map (char.toString ++ ·)

/-- The message of a template and its arguments. Without arguments it is shown as it is. -/
def message? (template : String) (arguments : List Json) : Option String :=
  if arguments.isEmpty then some template
  else fillTemplate? 0 template.toList (.ofArguments arguments)

end WorkspaceGraph.Log
