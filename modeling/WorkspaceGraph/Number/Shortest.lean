import WorkspaceGraph.Number.Binary64
/-!
The shortest decimal of a binary number: the fewest significant digits that read back as the same
number, and of those the nearest to it. All arithmetic is on natural numbers.
-/

namespace WorkspaceGraph.Shortest

structure Decimal where
  digits : Nat
  power : Int
deriving DecidableEq, Repr

/-- The reals that round to a positive number, as multiples of a quarter of its last place: from
`lower / 4` to `upper / 4` last places, with both ends if `closed`. -/
structure Interval where
  lower : Nat
  upper : Nat
  closed : Bool
deriving DecidableEq, Repr

/-- Below a power of two the numbers lie twice as dense. -/
def interval (mantissa : Nat) (exponent : Int) : Interval where
  lower :=
    if mantissa == Nat.pow 2 52 && Binary64.leastExponent < exponent then 4 * mantissa - 1
    else 4 * mantissa - 2
  upper := 4 * mantissa + 2
  closed := mantissa % 2 == 0

def quarters (count : Nat) (exponent : Int) : Nat × Nat :=
  if 0 ≤ exponent then (count * Nat.pow 2 exponent.toNat, 4)
  else (count, 4 * Nat.pow 2 (-exponent).toNat)

def fractionLt (left right : Nat × Nat) : Bool := left.1 * right.2 < right.1 * left.2

def Decimal.fraction (decimal : Decimal) : Nat × Nat :=
  if 0 ≤ decimal.power then (decimal.digits * Nat.pow 10 decimal.power.toNat, 1)
  else (decimal.digits, Nat.pow 10 (-decimal.power).toNat)

def reads (mantissa : Nat) (exponent : Int) (decimal : Decimal) : Bool :=
  let range := interval mantissa exponent
  let lower := quarters range.lower exponent
  let upper := quarters range.upper exponent
  let value := decimal.fraction
  if range.closed then !fractionLt value lower && !fractionLt upper value
  else fractionLt lower value && fractionLt value upper

def magnitude (value : Nat × Nat) : Int :=
  let bits : Int := (value.1.log2 : Int) - value.2.log2
  let estimate := bits * 30103 / 100000
  let reached (power : Int) : Bool := !fractionLt value (Decimal.fraction ⟨1, power⟩)
  if reached (estimate + 1) then estimate + 1
  else if reached estimate then estimate
  else estimate - 1

def neighbours (value : Nat × Nat) (power : Int) : Decimal × Decimal :=
  let scaled : Nat × Nat :=
    if 0 ≤ power then (value.1, value.2 * Nat.pow 10 power.toNat)
    else (value.1 * Nat.pow 10 (-power).toNat, value.2)
  let below := scaled.1 / scaled.2
  (⟨below, power⟩, ⟨below + 1, power⟩)

/-- Whether the upper neighbour is the nearer one; a tie goes to the even digit. -/
def upperNearer (value : Nat × Nat) (below above : Decimal) : Bool :=
  let low := below.fraction
  let high := above.fraction
  let twice := (2 * value.1 * low.2 * high.2, value.2 * low.2 * high.2)
  let sum := (low.1 * high.2 + high.1 * low.2, low.2 * high.2)
  if fractionLt sum (twice.1, twice.2) then true
  else if fractionLt (twice.1, twice.2) sum then false
  else below.digits % 2 == 1

def withDigits (mantissa : Nat) (exponent : Int) (count : Nat) : Option Decimal :=
  let value := quarters (4 * mantissa) exponent
  let (below, above) := neighbours value (magnitude value - count + 1)
  let low := 0 < below.digits && reads mantissa exponent below
  let high := reads mantissa exponent above
  if low && high then some (if upperNearer value below above then above else below)
  else if low then some below
  else if high then some above
  else none

def normalize (fuel : Nat) (decimal : Decimal) : Decimal :=
  match fuel with
  | 0 => decimal
  | fuel + 1 =>
      if decimal.digits % 10 == 0 && decimal.digits != 0 then
        normalize fuel ⟨decimal.digits / 10, decimal.power + 1⟩
      else decimal

/-- The shortest decimal of a positive finite number. Seventeen digits always suffice. -/
def ofPositive (mantissa : Nat) (exponent : Int) : Decimal :=
  let found := (List.range 17).findSome? fun count => withDigits mantissa exponent (count + 1)
  normalize 20 (found.getD ⟨mantissa, exponent⟩)

def leastPositional : Int := -4

def greatestPositional : Int := 15

def exponentText (exponent : Int) : String :=
  let digits := toString exponent.natAbs
  (if exponent < 0 then "-" else "+") ++ (if digits.length < 2 then "0" ++ digits else digits)

/-- The text of a positive decimal: positional from `1e-4` to below `1e16`, with at least one
place after the point; otherwise one digit before the point and an exponent. -/
def Decimal.text (decimal : Decimal) : String :=
  let digits := toString decimal.digits
  let leading : Int := digits.length + decimal.power - 1
  if leading < leastPositional || greatestPositional < leading then
    let head := String.ofList (digits.toList.take 1)
    let tail := String.ofList (digits.toList.drop 1)
    (if tail.isEmpty then head else head ++ "." ++ tail) ++ "e" ++ exponentText leading
  else if 0 ≤ decimal.power then
    digits ++ String.ofList (List.replicate decimal.power.toNat '0') ++ ".0"
  else if leading < 0 then
    "0." ++ String.ofList (List.replicate (-leading - 1).toNat '0') ++ digits
  else
    String.ofList (digits.toList.take (leading + 1).toNat) ++ "." ++
      String.ofList (digits.toList.drop (leading + 1).toNat)

end WorkspaceGraph.Shortest

namespace WorkspaceGraph.Binary64

/-- The text of a number; `infinity` and `notNumber` are the words for the numbers that have no
digits. -/
def text (infinity notNumber : String) : Binary64 → String
  | nan => notNumber
  | infinite negative => if negative then "-" ++ infinity else infinity
  | finite negative mantissa exponent =>
      let sign := if negative then "-" else ""
      if mantissa == 0 then sign ++ "0.0"
      else sign ++ (Shortest.ofPositive mantissa exponent).text

end WorkspaceGraph.Binary64
