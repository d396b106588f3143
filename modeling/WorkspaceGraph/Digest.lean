import WorkspaceGraph.Json.Writer
import WorkspaceGraph.Text.Utf8
/-!
The fingerprint of a payload: the 32-bit FNV-1a hash of its stable text. It tells two payloads
under one key apart and is no defence against a forger.
-/

namespace WorkspaceGraph.Digest

def offsetBasis : UInt32 := 0x811C9DC5

def prime : UInt32 := 0x01000193

def step (state : UInt32) (byte : UInt8) : UInt32 := (state ^^^ byte.toUInt32) * prime

def hash (bytes : List UInt8) : UInt32 := bytes.foldl step offsetBasis

def hexText (value : UInt32) : String := String.ofList (Text.hexDigits 8 value.toNat)

def ofBytes (bytes : List UInt8) : String := hexText (hash bytes)

def payload (workspaceId scannerName : String) (scannerVersion : Option String)
    (snapshot : Json) : Json :=
  .record ([("workspaceId", .text workspaceId), ("scannerName", .text scannerName),
      ("snapshot", snapshot)] ++
    match scannerVersion with
    | some version => [("scannerVersion", .text version)]
    | none => [])

def ofPayload (workspaceId scannerName : String) (scannerVersion : Option String)
    (snapshot : Json) : String :=
  ofBytes (Text.Utf8.encode
    (Json.stableText (payload workspaceId scannerName scannerVersion snapshot)))

end WorkspaceGraph.Digest
