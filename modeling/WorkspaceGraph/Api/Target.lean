import WorkspaceGraph.Json.Reader
import WorkspaceGraph.Text.Utf8
/-!
Request targets: a path and a query, in which bytes may be written by their hexadecimal codes.
-/

namespace WorkspaceGraph.Api

structure Target where
  path : String
  query : List (String × String)
deriving DecidableEq, Repr

namespace Target

def hexDigit? (byte : UInt8) : Option Nat := Json.Reader.hexValue (Char.ofNat byte.toNat)

def hexByte? (high low : UInt8) : Option UInt8 :=
  match hexDigit? high, hexDigit? low with
  | some high, some low => some (UInt8.ofNat (high * 16 + low))
  | _, _ => none

/-- Read the hexadecimal codes among some bytes. A percent sign without two digits stands for
itself. -/
def decodeBytes : List UInt8 → List UInt8
  | [] => []
  | 0x25 :: high :: low :: rest =>
      match hexByte? high low with
      | some byte => byte :: decodeBytes rest
      | none => 0x25 :: decodeBytes (high :: low :: rest)
  | byte :: rest => byte :: decodeBytes rest
termination_by bytes => bytes.length

def decode (chars : List Char) : String :=
  Text.Utf8.decodeLenient (decodeBytes (Text.Utf8.encode (String.ofList chars)))

def splitOn (separator : Char) : List Char → List (List Char)
  | [] => [[]]
  | char :: rest =>
      if char == separator then [] :: splitOn separator rest
      else
        match splitOn separator rest with
        | [] => [[char]]
        | part :: parts => (char :: part) :: parts

def cut (separator : Char) (chars : List Char) : List Char × List Char :=
  (chars.takeWhile (· != separator), (chars.dropWhile (· != separator)).drop 1)

def decodeField (chars : List Char) : String :=
  decode (chars.map fun char => if char == '+' then ' ' else char)

/-- The names and values of a query. Empty parts are skipped; a name alone has the empty value. -/
def parseQuery (chars : List Char) : List (String × String) :=
  ((splitOn '&' chars).filter (· != [])).map fun part =>
    let (name, value) := cut '=' part
    (decodeField name, decodeField value)

def parse (target : String) : Target :=
  let (path, query) := cut '?' (cut '#' target.toList).1
  ⟨decode path, parseQuery query⟩

def value? (name : String) (target : Target) : Option String :=
  (target.query.reverse.find? fun field => field.1 = name).map (·.2)

end Target

end WorkspaceGraph.Api
