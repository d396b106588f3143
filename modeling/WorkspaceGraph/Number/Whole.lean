import WorkspaceGraph.Text.Blank
import WorkspaceGraph.Text.Digit
/-!
Reading whole numbers: digits, perhaps behind a sign and with white space around. A single
underscore may stand between two digits.
-/

namespace WorkspaceGraph.Whole

/-- White space. The separator controls are not part of it here. -/
def isSpace (char : Char) : Bool :=
  Text.isBlank char && !(0x1C ≤ char.toNat && char.toNat ≤ 0x1F)

def trimSpace (chars : List Char) : List Char :=
  Text.dropEndWhile isSpace (chars.dropWhile isSpace)

def moreDigits? (digit? : Char → Option Nat) (value : Nat) : List Char → Option Nat
  | [] => some value
  | '_' :: char :: rest =>
      (digit? char).bind fun digit => moreDigits? digit? (value * 10 + digit) rest
  | char :: rest =>
      (digit? char).bind fun digit => moreDigits? digit? (value * 10 + digit) rest

def unsigned? (digit? : Char → Option Nat) : List Char → Option Nat
  | [] => none
  | char :: rest => (digit? char).bind fun digit => moreDigits? digit? digit rest

def signed? (digit? : Char → Option Nat) : List Char → Option Int
  | '+' :: rest => (unsigned? digit? rest).map Int.ofNat
  | '-' :: rest => (unsigned? digit? rest).map fun value => -(value : Int)
  | chars => (unsigned? digit? chars).map Int.ofNat

def ofText? (text : String) : Option Int := signed? Text.digitValue? (trimSpace text.toList)

def withoutZeroFraction? (chars : List Char) : Option (List Char) :=
  match chars.dropWhile (· != '.') with
  | [] => some chars
  | _ :: fraction =>
      if fraction.all (· == '0') then some (chars.takeWhile (· != '.')) else none

/-- The number a text of ASCII digits stands for; a fraction of zeros is allowed. -/
def ofPlainText? (text : String) : Option Int :=
  (withoutZeroFraction? (trimSpace text.toList)).bind (signed? Text.asciiDigitValue?)

end WorkspaceGraph.Whole
