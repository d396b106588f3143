/-!
Binary floating point of 64 bits, in exact arithmetic. A finite number is a signed mantissa below
`2 ^ 53` times a power of two; rounding goes to the nearest such number, a tie to the even mantissa.
-/

namespace WorkspaceGraph

/-- A number of 64 bits. The finite ones are `± mantissa * 2 ^ exponent`. -/
inductive Binary64
  | finite (negative : Bool) (mantissa : Nat) (exponent : Int)
  | infinite (negative : Bool)
  | nan
deriving DecidableEq, Repr

namespace Binary64

/-- The least exponent: `2 ^ leastExponent` is the smallest positive number. -/
def leastExponent : Int := -1074

def greatestExponent : Int := 971

def mantissaBound : Nat := Nat.pow 2 53

def zero : Binary64 := finite false 0 leastExponent

def roundDiv (numerator denominator : Nat) : Nat :=
  let quotient := numerator / denominator
  let twice := 2 * (numerator % denominator)
  if twice < denominator || (twice == denominator && quotient % 2 == 0) then quotient
  else quotient + 1

def unscale (numerator denominator : Nat) (exponent : Int) : Nat × Nat :=
  if 0 ≤ exponent then (numerator, denominator * Nat.pow 2 exponent.toNat)
  else (numerator * Nat.pow 2 (-exponent).toNat, denominator)

def exponentOf (numerator denominator : Nat) : Int :=
  let estimate : Int := (numerator.log2 : Int) - denominator.log2 - 53
  let scaled := unscale numerator denominator estimate
  let exact := if scaled.1 / scaled.2 < mantissaBound then estimate else estimate + 1
  if exact < leastExponent then leastExponent else exact

def ofFraction (negative : Bool) (numerator denominator : Nat) : Binary64 :=
  if numerator == 0 then finite negative 0 leastExponent
  else
    let exponent := exponentOf numerator denominator
    let scaled := unscale numerator denominator exponent
    let mantissa := roundDiv scaled.1 scaled.2
    let (mantissa, exponent) :=
      if mantissa == mantissaBound then (mantissa / 2, exponent + 1) else (mantissa, exponent)
    if greatestExponent < exponent then infinite negative else finite negative mantissa exponent

/-- The number nearest to `± digits * 10 ^ power`. Powers far outside the range of the format are
settled by the number of digits alone. -/
def ofDecimal (negative : Bool) (digits : Nat) (power : Int) : Binary64 :=
  let places : Int := (Nat.toDigits 10 digits).length + power
  if digits == 0 || places < -400 then finite negative 0 leastExponent
  else if 400 < places then infinite negative
  else if 0 ≤ power then ofFraction negative (digits * Nat.pow 10 power.toNat) 1
  else ofFraction negative digits (Nat.pow 10 (-power).toNat)

def scale (number : Binary64) (steps : Nat) : Binary64 :=
  match number with
  | finite negative mantissa exponent =>
      if 0 ≤ exponent then ofFraction negative (mantissa * Nat.pow 2 (exponent.toNat + steps)) 1
      else ofFraction negative (mantissa * Nat.pow 2 steps) (Nat.pow 2 (-exponent).toNat)
  | other => other

def fraction? : Binary64 → Option (Int × Nat)
  | finite negative mantissa exponent =>
      let magnitude : Int :=
        if 0 ≤ exponent then mantissa * Nat.pow 2 exponent.toNat else mantissa
      let denominator := if 0 ≤ exponent then 1 else Nat.pow 2 (-exponent).toNat
      some (if negative then -magnitude else magnitude, denominator)
  | _ => none

/-- Strictly smaller. Nothing is smaller or greater than `nan`. -/
def lt : Binary64 → Binary64 → Bool
  | nan, _ => false
  | _, nan => false
  | infinite negative, infinite negative' => negative && !negative'
  | infinite negative, _ => negative
  | _, infinite negative => !negative
  | left@(finite ..), right@(finite ..) =>
      match left.fraction?, right.fraction? with
      | some (numerator, denominator), some (numerator', denominator') =>
          numerator * denominator' < numerator' * denominator
      | _, _ => false

/-- Equal in value: the two zeros are equal, and `nan` differs from itself. -/
def beqInt (number : Binary64) (value : Int) : Bool :=
  match number.fraction? with
  | some (numerator, denominator) => numerator == value * denominator
  | none => false

end Binary64

end WorkspaceGraph
