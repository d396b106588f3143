import WorkspaceGraph.Text.Utf8
/-!
Text of unknown encoding. A byte order mark decides; without one the zero bytes at the front tell
UTF-16 and UTF-32 and their byte order, since the first two characters of the texts read here are
ASCII. Everything else is UTF-8.
-/

namespace WorkspaceGraph.Text

inductive ByteOrder
  | bigEndian
  | littleEndian
deriving DecidableEq, Repr

inductive Encoding
  | utf8
  | utf16 (order : ByteOrder)
  | utf32 (order : ByteOrder)
deriving DecidableEq, Repr

namespace Encoding

/-- The encoding of a byte string, and the bytes after its byte order mark. -/
def detect (bytes : List UInt8) : Encoding × List UInt8 :=
  match bytes with
  | 0x00 :: 0x00 :: 0xFE :: 0xFF :: rest => (utf32 .bigEndian, rest)
  | 0xFF :: 0xFE :: 0x00 :: 0x00 :: rest => (utf32 .littleEndian, rest)
  | 0xFE :: 0xFF :: rest => (utf16 .bigEndian, rest)
  | 0xFF :: 0xFE :: rest => (utf16 .littleEndian, rest)
  | 0xEF :: 0xBB :: 0xBF :: rest => (utf8, rest)
  | [first, second] =>
      if first == 0 then (utf16 .bigEndian, bytes)
      else if second == 0 then (utf16 .littleEndian, bytes)
      else (utf8, bytes)
  | first :: second :: third :: fourth :: _ =>
      if first == 0 then
        (if second == 0 then utf32 .bigEndian else utf16 .bigEndian, bytes)
      else if second == 0 then
        (if third == 0 && fourth == 0 then utf32 .littleEndian else utf16 .littleEndian, bytes)
      else (utf8, bytes)
  | _ => (utf8, bytes)

def units16 (order : ByteOrder) : List UInt8 → Option (List Nat)
  | [] => some []
  | [_] => none
  | first :: second :: rest =>
      let unit := match order with
        | .bigEndian => first.toNat * 256 + second.toNat
        | .littleEndian => second.toNat * 256 + first.toNat
      (units16 order rest).map (unit :: ·)

/-- The characters of 16-bit units; a surrogate without its partner is refused. -/
def ofUnits16 : List Nat → Option (List Char)
  | [] => some []
  | unit :: rest =>
      if 0xD800 ≤ unit && unit ≤ 0xDBFF then
        match rest with
        | partner :: rest =>
            if 0xDC00 ≤ partner && partner ≤ 0xDFFF then
              (ofUnits16 rest).map
                (Char.ofNat (0x10000 + (unit - 0xD800) * 0x400 + (partner - 0xDC00)) :: ·)
            else none
        | [] => none
      else if 0xDC00 ≤ unit && unit ≤ 0xDFFF then none
      else (ofUnits16 rest).map (Char.ofNat unit :: ·)

def ofUnits32 (order : ByteOrder) : List UInt8 → Option (List Char)
  | [] => some []
  | first :: second :: third :: fourth :: rest =>
      let code := match order with
        | .bigEndian =>
            ((first.toNat * 256 + second.toNat) * 256 + third.toNat) * 256 + fourth.toNat
        | .littleEndian =>
            ((fourth.toNat * 256 + third.toNat) * 256 + second.toNat) * 256 + first.toNat
      if code.isValidChar then (ofUnits32 order rest).map (Char.ofNat code :: ·) else none
  | _ => none

def decode? (encoding : Encoding) (bytes : List UInt8) : Option String :=
  match encoding with
  | utf8 => Utf8.decode? bytes
  | utf16 order => ((units16 order bytes).bind ofUnits16).map String.ofList
  | utf32 order => (ofUnits32 order bytes).map String.ofList

end Encoding

def decodeDetected? (bytes : List UInt8) : Option String :=
  let (encoding, rest) := Encoding.detect bytes
  encoding.decode? rest

end WorkspaceGraph.Text
