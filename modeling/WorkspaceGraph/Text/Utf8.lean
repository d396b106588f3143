/-!
UTF-8. Decoding yields the characters of a byte string in order, with a gap for every maximal
malformed part: the longest run of bytes that begins a well-formed sequence and is then broken off,
or else a single byte. A strict reader accepts no gap, a lenient one writes the replacement
character for each.
-/

namespace WorkspaceGraph.Text.Utf8

/-- A sequence that has begun: the continuation bytes still to come, the bits read so far, and the
range the next byte has to lie in. -/
structure Pending where
  missing : Nat
  bits : Nat
  least : UInt8
  greatest : UInt8
deriving DecidableEq, Repr

inductive Lead
  | single (char : Char)
  | opens (pending : Pending)
  | stray
deriving DecidableEq, Repr

/-- The ranges of the second byte keep out overlong forms, surrogates and codes past the last
plane. -/
def lead (byte : UInt8) : Lead :=
  if byte < 0x80 then .single (Char.ofNat byte.toNat)
  else if byte < 0xC2 then .stray
  else if byte < 0xE0 then .opens ⟨1, byte.toNat - 0xC0, 0x80, 0xBF⟩
  else if byte == 0xE0 then .opens ⟨2, 0, 0xA0, 0xBF⟩
  else if byte == 0xED then .opens ⟨2, 0xD, 0x80, 0x9F⟩
  else if byte < 0xF0 then .opens ⟨2, byte.toNat - 0xE0, 0x80, 0xBF⟩
  else if byte == 0xF0 then .opens ⟨3, 0, 0x90, 0xBF⟩
  else if byte < 0xF4 then .opens ⟨3, byte.toNat - 0xF0, 0x80, 0xBF⟩
  else if byte == 0xF4 then .opens ⟨3, 4, 0x80, 0x8F⟩
  else .stray

/-- The characters of a byte string, `none` standing for a malformed part. -/
def decodeFrom : Option Pending → List UInt8 → List (Option Char)
  | none, [] => []
  | some _, [] => [none]
  | none, byte :: rest =>
      match lead byte with
      | .single char => some char :: decodeFrom none rest
      | .opens pending => decodeFrom (some pending) rest
      | .stray => none :: decodeFrom none rest
  | some pending, byte :: rest =>
      if pending.least ≤ byte && byte ≤ pending.greatest then
        let bits := pending.bits * 64 + (byte.toNat - 0x80)
        if pending.missing ≤ 1 then some (Char.ofNat bits) :: decodeFrom none rest
        else decodeFrom (some ⟨pending.missing - 1, bits, 0x80, 0xBF⟩) rest
      else
        match lead byte with
        | .single char => none :: some char :: decodeFrom none rest
        | .opens opened => none :: decodeFrom (some opened) rest
        | .stray => none :: none :: decodeFrom none rest

def decode? (bytes : List UInt8) : Option String :=
  ((decodeFrom none bytes).mapM id).map String.ofList

def decodeLenient (bytes : List UInt8) : String :=
  String.ofList ((decodeFrom none bytes).map fun char => char.getD '\ufffd')

def encode (text : String) : List UInt8 := text.toList.flatMap String.utf8EncodeChar

end WorkspaceGraph.Text.Utf8
