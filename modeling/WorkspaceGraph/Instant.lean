/-!
Moments in time, to the microsecond, in the proleptic Gregorian calendar. They are counted from the
start of the year 1 and are written as a date, a `T` and a time of day.
-/

namespace WorkspaceGraph

/-- The number of microseconds since the start of the year 1. -/
structure Instant where
  microseconds : Nat
deriving DecidableEq, Repr

namespace Instant

def isLeap (year : Nat) : Bool := year % 4 == 0 && (year % 100 != 0 || year % 400 == 0)

def monthLengths (year : Nat) : List Nat :=
  [31, if isLeap year then 29 else 28, 31, 30, 31, 30, 31, 31, 30, 31, 30, 31]

def daysBefore (year : Nat) : Nat :=
  let past := year - 1
  past * 365 + past / 4 - past / 100 + past / 400

/-- The year a day lies in. The estimate from the mean length of a year is off by one at most. -/
def yearOf (day : Nat) : Nat :=
  let estimate := (day + 1) * 400 / 146097 + 1
  if day < daysBefore estimate then estimate - 1
  else if day < daysBefore (estimate + 1) then estimate
  else estimate + 1

def monthOf (month : Nat) (day : Nat) : List Nat → Nat × Nat
  | [] => (month, day + 1)
  | length :: rest =>
      if day < length then (month, day + 1) else monthOf (month + 1) (day - length) rest

def padded (width value : Nat) : String :=
  let digits := Nat.toDigits 10 value
  String.ofList (List.replicate (width - digits.length) '0' ++ digits)

def second : Nat := 1000000

def secondText (instant : Instant) : String :=
  let seconds := instant.microseconds / second
  let day := seconds / 86400
  let year := yearOf day
  let (month, monthDay) := monthOf 1 (day - daysBefore year) (monthLengths year)
  padded 4 year ++ "-" ++ padded 2 month ++ "-" ++ padded 2 monthDay ++ "T" ++
    padded 2 (seconds / 3600 % 24) ++ ":" ++ padded 2 (seconds / 60 % 60) ++ ":" ++
    padded 2 (seconds % 60)

def fractionText (instant : Instant) : String := "." ++ padded 6 (instant.microseconds % second)

/-- The text in which rows show a moment: always with the fraction. -/
def fullText (instant : Instant) : String := instant.secondText ++ instant.fractionText

/-- The text in which answers show a moment: the fraction is left out if it is zero. -/
def text (instant : Instant) : String :=
  if instant.microseconds % second == 0 then instant.secondText else instant.fullText

/-! ## Reading -/

def number? (chars : List Char) : Option Nat :=
  if chars.isEmpty || !chars.all Char.isDigit then none
  else some (chars.foldl (fun value char => value * 10 + (char.toNat - '0'.toNat)) 0)

def fraction? : List Char → Option Nat
  | [] => some 0
  | '.' :: digits =>
      if 6 < digits.length then none
      else (number? digits).map (· * Nat.pow 10 (6 - digits.length))
  | _ => none

def make (year month day hour minute seconds microseconds : Nat) : Instant :=
  let days := daysBefore year + ((monthLengths year).take (month - 1)).foldl Nat.add 0 + (day - 1)
  ⟨(((days * 24 + hour) * 60 + minute) * 60 + seconds) * second + microseconds⟩

def ofText? (text : String) : Option Instant :=
  match text.toList with
  | y₁ :: y₂ :: y₃ :: y₄ :: '-' :: m₁ :: m₂ :: '-' :: d₁ :: d₂ :: 'T' :: h₁ :: h₂ :: ':' ::
      n₁ :: n₂ :: ':' :: s₁ :: s₂ :: rest =>
      if rest.getLast? = some 'Z' then do
        let year ← number? [y₁, y₂, y₃, y₄]
        let month ← number? [m₁, m₂]
        let day ← number? [d₁, d₂]
        let hour ← number? [h₁, h₂]
        let minute ← number? [n₁, n₂]
        let seconds ← number? [s₁, s₂]
        let microseconds ← fraction? rest.dropLast
        some (make year month day hour minute seconds microseconds)
      else none
  | _ => none

end Instant

end WorkspaceGraph
