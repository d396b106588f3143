import WorkspaceGraph.Number.Whole
import WorkspaceGraph.Settings
import WorkspaceGraph.Text.Letter
/-!
Addresses of databases. An address begins with a driver, a colon and two slashes. Then come the user
with a password and an at sign, the host with the number at which the database listens there, the
name of the database behind a slash, and options behind a question mark. Every part but the driver
may be missing.
-/

namespace WorkspaceGraph.Database

structure Address where
  driver : String
  user : Option String
  password : Option String
  host : Option String
  number : Option Int
  name : Option String
deriving DecidableEq, Repr

inductive AddressError
  /-- It does not begin with a driver, or has parts that the driver does not take. -/
  | malformed
  | badNumber (text : String)
  | emptyNumber
  | unknownDriver
  /-- The driver is known, but waits for every answer. -/
  | blockingDriver
  | missingDriver
deriving DecidableEq, Repr

namespace Address

/-! ## Reading -/

def isDriverChar (char : Char) : Bool := Text.isWord char || char == '+'

def driver? (chars : List Char) : Option (List Char × List Char) :=
  match chars.takeWhile isDriverChar, chars.dropWhile isDriverChar with
  | [], _ => none
  | driver, ':' :: '/' :: '/' :: rest => some (driver, rest)
  | _, _ => none

structure Login where
  user : Option (List Char)
  password : Option (List Char)
  rest : List Char

def splitLastAt? (chars : List Char) : Option (List Char × List Char) :=
  match chars.reverse.dropWhile (· != '@') with
  | [] => none
  | _ :: before => some (before.reverse, (chars.reverse.takeWhile (· != '@')).reverse)

/-- Read the user, who has no colon or slash in his name, and the password behind a colon. Both
end at an at sign; without one there is no user. -/
def login (chars : List Char) : Login :=
  let span := chars.takeWhile fun char => char != ':' && char != '/'
  let after := chars.dropWhile fun char => char != ':' && char != '/'
  let withoutPassword : Login :=
    match splitLastAt? span with
    | some (user, host) => ⟨some user, none, host ++ after⟩
    | none => ⟨none, none, chars⟩
  match after with
  | ':' :: secret =>
      match secret.dropWhile (· != '@') with
      | _ :: rest => ⟨some span, some (secret.takeWhile (· != '@')), rest⟩
      | [] => withoutPassword
  | _ => withoutPassword

def bracketed? (chars : List Char) : Option (List Char × List Char) :=
  match chars with
  | '[' :: rest =>
      let span := rest.takeWhile fun char => char != '/' && char != '?'
      let after := rest.dropWhile fun char => char != '/' && char != '?'
      match span.reverse.dropWhile (· != ']') with
      | _ :: inner =>
          if inner.isEmpty then none
          else some (inner.reverse, (span.reverse.takeWhile (· != ']')).reverse ++ after)
      | [] => none
  | _ => none

def readHost (chars : List Char) : Option (List Char) × List Char :=
  match bracketed? chars with
  | some (host, rest) => (some host, rest)
  | none =>
      let isEnd := fun (char : Char) => char == '/' || char == ':' || char == '?'
      match chars.takeWhile fun char => !isEnd char with
      | [] => (none, chars)
      | found => (some found, chars.dropWhile fun char => !isEnd char)

def numberText (chars : List Char) : Option (List Char) × List Char :=
  match chars with
  | ':' :: rest =>
      let isEnd := fun (char : Char) => char == '/' || char == '?'
      (some (rest.takeWhile fun char => !isEnd char), rest.dropWhile fun char => !isEnd char)
  | _ => (none, chars)

def databaseName (chars : List Char) : Option (List Char) :=
  match chars with
  | '/' :: rest => some (rest.takeWhile (· != '?'))
  | _ => none

def readNumber : Option (List Char) → Except AddressError (Option Int)
  | none => .ok none
  | some [] => .error .emptyNumber
  | some chars =>
      match Whole.ofText? (String.ofList chars) with
      | some number => .ok (some number)
      | none => .error (.badNumber (String.ofList chars))

def parse (text : String) : Except AddressError Address :=
  match driver? text.toList with
  | none => .error .malformed
  | some (driver, rest) => do
      let login := login rest
      let (host, rest) := readHost login.rest
      let (numberChars, rest) := numberText rest
      let number ← readNumber numberChars
      .ok {
        driver := String.ofList driver
        user := login.user.map String.ofList
        password := login.password.map String.ofList
        host := host.map String.ofList
        number
        name := (databaseName rest).map String.ofList }

/-! ## Drivers -/

def asyncDrivers : List String := ["postgresql+asyncpg", "sqlite+aiosqlite"]

def blockingDrivers : List String := ["sqlite", "sqlite+pysqlite"]

/-- Drivers that are known but are not part of the installation. -/
def missingDrivers : List String := [
  "postgresql", "postgresql+psycopg2", "postgresql+psycopg", "postgresql+pg8000",
  "postgresql+psycopg2cffi", "sqlite+pysqlcipher", "mysql", "mysql+mysqldb", "mysql+pymysql",
  "mysql+aiomysql", "mysql+asyncmy", "mysql+mysqlconnector", "mysql+cymysql", "mysql+pyodbc",
  "mariadb", "mariadb+mysqldb", "mariadb+pymysql", "mariadb+aiomysql", "mariadb+asyncmy",
  "mariadb+mariadbconnector", "oracle", "oracle+cx_oracle", "oracle+oracledb", "mssql",
  "mssql+pyodbc", "mssql+pymssql", "mssql+aioodbc"]

def checkDriver (driver : String) : Except AddressError Unit :=
  if asyncDrivers.contains driver then .ok ()
  else if blockingDrivers.contains driver then .error .blockingDriver
  else if missingDrivers.contains driver then .error .missingDriver
  else .error .unknownDriver

def isFileAddress (text : String) : Bool := text.startsWith "sqlite"

def isGiven (part : Option String) : Bool := (part.getD "") != ""

/-- A database in a file is reached without a user, a host or a number; the number zero is none. -/
def takesParts (address : Address) : Bool :=
  !isFileAddress address.driver ||
    !(isGiven address.user || isGiven address.password || isGiven address.host ||
      address.number.getD 0 != 0)

end Address

/-! ## Engines -/

/-- A database that is ready to be used. A database in a file has no pool of connections. -/
structure Engine where
  address : Address
  pool : Option (Int × Int)
deriving DecidableEq, Repr

namespace Engine

/-- Replace every occurrence of a pattern, from the left. `skip` is how many characters of an
occurrence are still to be dropped. -/
def replaceAll (pattern replacement : List Char) (skip : Nat) : List Char → List Char
  | [] => []
  | char :: rest =>
      if skip != 0 then replaceAll pattern replacement (skip - 1) rest
      else if pattern.isPrefixOf (char :: rest) then
        replacement ++ replaceAll pattern replacement (pattern.length - 1) rest
      else char :: replaceAll pattern replacement 0 rest

def withAsyncDriver (address : String) : String :=
  String.ofList (replaceAll "postgresql://".toList "postgresql+asyncpg://".toList 0
    address.toList)

/-- The engine of an address. The size of the pool and its overflow are taken from the settings
unless they are given. -/
def build (settings : Settings) (address : String) (poolSize maxOverflow : Option Int) :
    Except AddressError Engine := do
  let text := withAsyncDriver address
  let address ← Address.parse text
  Address.checkDriver address.driver
  if address.takesParts then
    .ok {
      address
      pool :=
        if Address.isFileAddress text then none
        else some (poolSize.getD settings.poolSize, maxOverflow.getD settings.maxOverflow) }
  else .error .malformed

end Engine

end WorkspaceGraph.Database
