import WorkspaceGraph.Number.Shortest
/-!
Amounts: whole numbers and floating-point numbers side by side. They are compared by their exact
values, and each kind is written in its own way.
-/

namespace WorkspaceGraph

inductive Amount
  | whole (value : Int)
  | real (value : Binary64)
deriving DecidableEq, Repr

namespace Amount

def lt : Amount → Amount → Bool
  | whole value, whole other => value < other
  | real value, real other => value.lt other
  | whole value, real other =>
      match other.fraction? with
      | some (numerator, denominator) => value * denominator < numerator
      | none => (Binary64.finite false 0 0).lt other
  | real value, whole other =>
      match value.fraction? with
      | some (numerator, denominator) => numerator < other * denominator
      | none => value.lt (.finite false 0 0)

def min (first second : Amount) : Amount := if second.lt first then second else first

def text : Amount → String
  | whole value => toString value
  | real value => value.text "inf" "nan"

end Amount

end WorkspaceGraph
