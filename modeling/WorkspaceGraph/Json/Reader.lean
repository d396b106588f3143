import WorkspaceGraph.Json.Value
/-!
Reading JSON. Besides the grammar of the standard the words `NaN`, `Infinity` and `-Infinity` are
numbers, and a name may be repeated in a record. A text that is refused yields the cause and the
position, counted in characters from the start. There is no limit to how deep values are nested and
to how many digits a number has.
-/

namespace WorkspaceGraph.Json

inductive Cause
  | valueExpected
  | nameExpected
  | colonExpected
  | commaExpected
  | extraData
  | unterminatedText
  | controlCharacter
  | badEscape
  | badUnicodeEscape
  | byteOrderMark
deriving DecidableEq, Repr

def Cause.message : Cause → String
  | valueExpected => "Expecting value"
  | nameExpected => "Expecting property name enclosed in double quotes"
  | colonExpected => "Expecting ':' delimiter"
  | commaExpected => "Expecting ',' delimiter"
  | extraData => "Extra data"
  | unterminatedText => "Unterminated string starting at"
  | controlCharacter => "Invalid control character at"
  | badEscape => "Invalid \\escape"
  | badUnicodeEscape => "Invalid \\uXXXX escape"
  | byteOrderMark => "Unexpected UTF-8 BOM (decode using utf-8-sig)"

/-- A refused text: the cause, the position as a count of characters, the line (from one) and the
column in it (from one). -/
structure ReadError where
  cause : Cause
  position : Nat
  line : Nat
  column : Nat
deriving DecidableEq, Repr

def ReadError.message (error : ReadError) : String :=
  error.cause.message ++ ": line " ++ toString error.line ++ " column " ++ toString error.column ++
    " (char " ++ toString error.position ++ ")"

def ReadError.locate (cause : Cause) (chars : List Char) (position : Nat) : ReadError :=
  let before := chars.take position
  ⟨cause, position, before.count '\n' + 1, (before.reverse.takeWhile (· != '\n')).length + 1⟩

namespace Reader

abbrev Failure := Cause × List Char

abbrev Result (α : Type) := Except Failure (α × List Char)

def isSpace (char : Char) : Bool := char == ' ' || char == '\t' || char == '\n' || char == '\r'

def skipSpace (chars : List Char) : List Char := chars.dropWhile isSpace

/-! ## Texts -/

def hexValue (char : Char) : Option Nat :=
  if '0' ≤ char && char ≤ '9' then some (char.toNat - 48)
  else if 'a' ≤ char && char ≤ 'f' then some (char.toNat - 87)
  else if 'A' ≤ char && char ≤ 'F' then some (char.toNat - 55)
  else none

def unit? : List Char → Option Nat
  | [first, second, third, fourth] => do
      let first ← hexValue first
      let second ← hexValue second
      let third ← hexValue third
      let fourth ← hexValue fourth
      some (((first * 16 + second) * 16 + third) * 16 + fourth)
  | _ => none

def isHighSurrogate (unit : Nat) : Bool := 0xD800 ≤ unit && unit ≤ 0xDBFF

def isLowSurrogate (unit : Nat) : Bool := 0xDC00 ≤ unit && unit ≤ 0xDFFF

/-- The character of a unit. A surrogate without its partner is no character of a text, so a text
that spells one is outside of what is described here; it is read with the replacement character. -/
def ofUnit (unit : Nat) : Char := if unit.isValidChar then Char.ofNat unit else '\ufffd'

def simpleEscape (char : Char) : Option Char :=
  match char with
  | '"' => some '"'
  | '\\' => some '\\'
  | '/' => some '/'
  | 'b' => some '\x08'
  | 'f' => some '\x0c'
  | 'n' => some '\n'
  | 'r' => some '\r'
  | 't' => some '\t'
  | _ => none

/-- Read what follows a backslash: the character meant and the number of characters used. The four
digits after `u` have to be followed by at least one more character. -/
def readEscape (opening rest : List Char) : Except Failure (Char × Nat) :=
  match rest with
  | [] => .error (.unterminatedText, opening)
  | 'u' :: digits =>
      let after := digits.drop 4
      if after.isEmpty then .error (.badUnicodeEscape, rest)
      else
        match unit? (digits.take 4) with
        | none => .error (.badUnicodeEscape, rest)
        | some unit =>
            if isHighSurrogate unit && after.take 2 == ['\\', 'u'] && !(after.drop 6).isEmpty then
              match unit? ((after.drop 2).take 4) with
              | none => .error (.badUnicodeEscape, after.drop 1)
              | some partner =>
                  if isLowSurrogate partner then
                    .ok (Char.ofNat (0x10000 + (unit - 0xD800) * 0x400 + (partner - 0xDC00)), 11)
                  else .ok (ofUnit unit, 5)
            else .ok (ofUnit unit, 5)
  | char :: _ =>
      match simpleEscape char with
      | some meant => .ok (meant, 1)
      | none => .error (.badEscape, '\\' :: rest)

def readChars (opening : List Char) : Nat → List Char → Result (List Char)
  | _, [] => .error (.unterminatedText, opening)
  | skip + 1, _ :: rest => readChars opening skip rest
  | 0, char :: rest =>
      if char == '"' then .ok ([], rest)
      else if char == '\\' then
        match readEscape opening rest with
        | .error failure => .error failure
        | .ok (meant, used) =>
            (readChars opening used rest).map fun (chars, after) => (meant :: chars, after)
      else if char.toNat < 0x20 then .error (.controlCharacter, char :: rest)
      else (readChars opening 0 rest).map fun (chars, after) => (char :: chars, after)

def readText (chars : List Char) : Result String :=
  (readChars chars 0 (chars.drop 1)).map fun (content, rest) => (String.ofList content, rest)

/-! ## Numbers -/

def isDigit (char : Char) : Bool := '0' ≤ char && char ≤ '9'

def digitsValue (digits : List Char) : Nat :=
  digits.foldl (fun value digit => value * 10 + (digit.toNat - 48)) 0

def wholeDigits (chars : List Char) : Option (List Char × List Char) :=
  match chars with
  | '0' :: rest => some (['0'], rest)
  | char :: _ => if isDigit char then some (chars.span isDigit) else none
  | [] => none

/-- The digits after a point. A point without digits is not part of the number. -/
def fractionDigits (chars : List Char) : List Char × List Char :=
  match chars with
  | '.' :: rest => if (rest.takeWhile isDigit).isEmpty then ([], chars) else rest.span isDigit
  | _ => ([], chars)

/-- The exponent after `e` or `E`. A mark without digits is not part of the number. -/
def exponentValue (chars : List Char) : Option Int × List Char :=
  match chars with
  | mark :: rest =>
      if mark == 'e' || mark == 'E' then
        let (negative, digits) : Bool × List Char := match rest with
          | '-' :: digits => (true, digits)
          | '+' :: digits => (false, digits)
          | _ => (false, rest)
        let (shown, after) := digits.span isDigit
        if shown.isEmpty then (none, chars)
        else
          let value : Int := digitsValue shown
          (some (if negative then -value else value), after)
      else (none, chars)
  | [] => (none, chars)

def readUnsigned (negative : Bool) (chars : List Char) : Option (Json × List Char) :=
  (wholeDigits chars).map fun (whole, rest) =>
    let (places, rest) := fractionDigits rest
    let (exponent, rest) := exponentValue rest
    if places.isEmpty && exponent.isNone then
      let value : Int := digitsValue whole
      (.int (if negative then -value else value), rest)
    else
      (.real (Binary64.ofDecimal negative (digitsValue (whole ++ places))
        (exponent.getD 0 - places.length)), rest)

/-! ## Values -/

def words : List (List Char × Json) := [
  ("null".toList, .null),
  ("true".toList, .bool true),
  ("false".toList, .bool false),
  ("NaN".toList, .real .nan),
  ("Infinity".toList, .real (.infinite false)),
  ("-Infinity".toList, .real (.infinite true))]

def readWord (chars : List Char) : Option (Json × List Char) :=
  words.findSome? fun (word, value) =>
    if word.isPrefixOf chars then some (value, chars.drop word.length) else none

def readScalar (chars : List Char) : Result Json :=
  match readWord chars with
  | some found => .ok found
  | none =>
      let number := match chars with
        | '-' :: rest => readUnsigned true rest
        | _ => readUnsigned false chars
      match number with
      | some found => .ok found
      | none => .error (.valueExpected, chars)

mutual
/-- Read a value. The fuel bounds the depth and the number of values; the length of the text is
enough. -/
def readValue : Nat → List Char → Result Json
  | 0, chars => .error (.valueExpected, chars)
  | fuel + 1, chars =>
      match chars with
      | '"' :: _ => (readText chars).map fun (value, rest) => (.text value, rest)
      | '{' :: rest =>
          match skipSpace rest with
          | '}' :: rest => .ok (.record [], rest)
          | inner =>
              (readFields fuel inner).map fun (fields, rest) => (.record (ofFields fields), rest)
      | '[' :: rest =>
          match skipSpace rest with
          | ']' :: rest => .ok (.list [], rest)
          | inner => (readItems fuel inner).map fun (items, rest) => (.list items, rest)
      | _ => readScalar chars

def readItems : Nat → List Char → Result (List Json)
  | 0, chars => .error (.valueExpected, chars)
  | fuel + 1, chars =>
      match readValue fuel chars with
      | .error failure => .error failure
      | .ok (item, rest) =>
          match skipSpace rest with
          | ']' :: rest => .ok ([item], rest)
          | ',' :: rest =>
              (readItems fuel (skipSpace rest)).map fun (items, rest) => (item :: items, rest)
          | rest => .error (.commaExpected, rest)

def readFields : Nat → List Char → Result (List (String × Json))
  | 0, chars => .error (.nameExpected, chars)
  | fuel + 1, chars =>
      match chars with
      | '"' :: _ =>
          match readText chars with
          | .error failure => .error failure
          | .ok (name, rest) =>
              match skipSpace rest with
              | ':' :: rest =>
                  match readValue fuel (skipSpace rest) with
                  | .error failure => .error failure
                  | .ok (value, rest) =>
                      match skipSpace rest with
                      | '}' :: rest => .ok ([(name, value)], rest)
                      | ',' :: rest =>
                          (readFields fuel (skipSpace rest)).map fun (fields, rest) =>
                            ((name, value) :: fields, rest)
                      | rest => .error (.commaExpected, rest)
              | rest => .error (.colonExpected, rest)
      | _ => .error (.nameExpected, chars)
end

def readAll (chars : List Char) : Except Failure Json :=
  if chars.head? == some '\ufeff' then .error (.byteOrderMark, chars)
  else
    match readValue (chars.length + 1) (skipSpace chars) with
    | .error failure => .error failure
    | .ok (value, rest) =>
        match skipSpace rest with
        | [] => .ok value
        | rest => .error (.extraData, rest)

end Reader

def parse (source : String) : Except ReadError Json :=
  let chars := source.toList
  match Reader.readAll chars with
  | .ok value => .ok value
  | .error (cause, rest) => .error (.locate cause chars (chars.length - rest.length))

end WorkspaceGraph.Json
