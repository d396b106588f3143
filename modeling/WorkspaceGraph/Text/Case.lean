/-!
Capital and small forms as far as they are ASCII. A few letters beyond ASCII have ASCII letters in
their capital form (`ß` is `SS`, `ﬁ` is `FI`) or in their small form (`İ` is `i` with a dot above).
A letter with no ASCII in the form asked for stands for itself: both forms are only read by rules
that keep nothing but ASCII.
-/

namespace WorkspaceGraph.Text

def capital (char : Char) : List Char :=
  match char.toNat with
  | 0xDF => ['S', 'S']
  | 0x131 => ['I']
  | 0x149 => ['\u02bc', 'N']
  | 0x17F => ['S']
  | 0x1F0 => ['J', '\u030c']
  | 0x1E96 => ['H', '\u0331']
  | 0x1E97 => ['T', '\u0308']
  | 0x1E98 => ['W', '\u030a']
  | 0x1E99 => ['Y', '\u030a']
  | 0x1E9A => ['A', '\u02be']
  | 0xFB00 => ['F', 'F']
  | 0xFB01 => ['F', 'I']
  | 0xFB02 => ['F', 'L']
  | 0xFB03 => ['F', 'F', 'I']
  | 0xFB04 => ['F', 'F', 'L']
  | 0xFB05 => ['S', 'T']
  | 0xFB06 => ['S', 'T']
  | _ => [char.toUpper]

def small (char : Char) : List Char :=
  match char.toNat with
  | 0x130 => ['i', '\u0307']
  | 0x212A => ['k']
  | _ => [char.toLower]

def capitalize (text : String) : String := String.ofList (text.toList.flatMap capital)

def lower (text : String) : String := String.ofList (text.toList.flatMap small)

end WorkspaceGraph.Text
