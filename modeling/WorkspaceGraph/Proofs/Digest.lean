import Mathlib.Algebra.Ring.Nat
import Mathlib.Logic.Equiv.Defs
import WorkspaceGraph.Digest
import WorkspaceGraph.Proofs.Json.Texts
/-!
What a digest keeps apart. A step of the hash can be undone by whoever knows the byte that was mixed
in, because the prime is odd. So bytes that follow neither bring two states together nor keep them
apart, and a single byte that is changed changes the digest, wherever it stands.
-/

namespace WorkspaceGraph.Digest

/-! ## One step -/

def inversePrime : UInt32 := 0x359C449B

def undo (state : UInt32) (byte : UInt8) : UInt32 := (state * inversePrime) ^^^ byte.toUInt32

theorem prime_mul_inversePrime : prime * inversePrime = 1 := by decide

theorem undo_step (state : UInt32) (byte : UInt8) : undo (step state byte) byte = state := by
  rw [undo, step, UInt32.mul_assoc, prime_mul_inversePrime, UInt32.mul_one, UInt32.xor_assoc,
    UInt32.xor_self, UInt32.xor_zero]

theorem step_undo (state : UInt32) (byte : UInt8) : step (undo state byte) byte = state := by
  have inverse : inversePrime * prime = 1 := by
    rw [UInt32.mul_comm, prime_mul_inversePrime]
  rw [undo, step, UInt32.xor_assoc, UInt32.xor_self, UInt32.xor_zero, UInt32.mul_assoc, inverse,
    UInt32.mul_one]

def mixing (byte : UInt8) : Equiv.Perm UInt32 where
  toFun state := step state byte
  invFun state := undo state byte
  left_inv state := undo_step state byte
  right_inv state := step_undo state byte

variable {left right : List UInt8}

theorem step_left_inj {state other : UInt32} {byte : UInt8} :
    step state byte = step other byte ↔ state = other :=
  (mixing byte).apply_eq_iff_eq

theorem step_right_inj {state : UInt32} {byte other : UInt8} :
    step state byte = step state other ↔ byte = other := by
  refine ⟨fun same => ?_, congrArg (step state)⟩
  have mixed : state ^^^ byte.toUInt32 = state ^^^ other.toUInt32 := by
    have undone := congrArg (undo · 0) same
    simpa [undo, step, UInt32.mul_assoc, prime_mul_inversePrime] using undone
  have bytes : byte.toUInt32 = other.toUInt32 := by
    simpa [← UInt32.xor_assoc] using congrArg (state ^^^ ·) mixed
  exact UInt8.toNat_inj.mp (congrArg UInt32.toNat bytes)

/-! ## Strings of bytes -/

theorem foldl_step_inj {state other : UInt32} (bytes : List UInt8) :
    bytes.foldl step state = bytes.foldl step other ↔ state = other := by
  induction bytes generalizing state other with
  | nil => rfl
  | cons byte rest induction => rw [List.foldl_cons, List.foldl_cons, induction, step_left_inj]

theorem hash_append_inj (ending : List UInt8) :
    hash (left ++ ending) = hash (right ++ ending) ↔ hash left = hash right := by
  rw [hash, hash, List.foldl_append, List.foldl_append, foldl_step_inj, hash, hash]

/-- A byte is told by the hash of any string that it stands in. -/
theorem hash_byte_inj (front back : List UInt8) {byte other : UInt8} :
    hash (front ++ byte :: back) = hash (front ++ other :: back) ↔ byte = other := by
  rw [hash, hash, List.foldl_append, List.foldl_append, List.foldl_cons, List.foldl_cons,
    foldl_step_inj, step_right_inj]

/-- The strings are equally long, and they differ in exactly one position. -/
structure OneByteApart (left right : List UInt8) : Prop where
  length_eq : left.length = right.length
  position : ∃ position : Nat, left[position]? ≠ right[position]? ∧
    ∀ other : Nat, other ≠ position → left[other]? = right[other]?

theorem OneByteApart.exists_bytes (apart : OneByteApart left right) :
    ∃ front byte other back, left = front ++ byte :: back ∧ right = front ++ other :: back ∧
      byte ≠ other := by
  rcases apart.position with ⟨position, differ, same⟩
  have inside : position < left.length := by
    refine Nat.lt_of_not_le fun outside => differ ?_
    rw [List.getElem?_eq_none outside, List.getElem?_eq_none (apart.length_eq ▸ outside)]
  have otherInside : position < right.length := apart.length_eq ▸ inside
  have front : right.take position = left.take position := by
    refine List.ext_getElem? fun index => ?_
    rw [List.getElem?_take, List.getElem?_take]
    split
    · exact (same index (by omega)).symm
    · rfl
  have back : right.drop (position + 1) = left.drop (position + 1) := by
    refine List.ext_getElem? fun index => ?_
    rw [List.getElem?_drop, List.getElem?_drop]
    exact (same _ (by omega)).symm
  have leftSplit := List.take_append_drop position left
  have rightSplit := List.take_append_drop position right
  rw [List.drop_eq_getElem_cons inside] at leftSplit
  rw [List.drop_eq_getElem_cons otherInside, front, back] at rightSplit
  refine ⟨_, _, _, _, leftSplit.symm, rightSplit.symm, fun equal => differ ?_⟩
  rw [List.getElem?_eq_getElem inside, List.getElem?_eq_getElem otherInside, equal]

/-! ## Digits -/

theorem hexDigits_inj {count value other : Nat} (bound : value < 16 ^ count)
    (otherBound : other < 16 ^ count) :
    Text.hexDigits count value = Text.hexDigits count other ↔ value = other := by
  refine ⟨fun same => ?_, congrArg (Text.hexDigits count)⟩
  induction count generalizing value other with
  | zero =>
      rw [Nat.pow_zero, Nat.lt_one_iff] at bound otherBound
      rw [bound, otherBound]
  | succ count induction =>
      have shown : ∀ value, Json.Reader.hexValue (Nat.digitChar (value % 16)) = some (value % 16) :=
        fun value => Json.Reader.hexValue_digitChar _ (Nat.mod_lt value (by decide))
      have halves := List.append_inj' same rfl
      have last : value % 16 = other % 16 := by
        have digits := congrArg Json.Reader.hexValue (List.singleton_inj.mp halves.2)
        rw [shown, shown] at digits
        exact Option.some.inj digits
      have first := induction (by omega) (by omega) halves.1
      omega

theorem mem_hexDigits {count value : Nat} {char : Char}
    (member : char ∈ Text.hexDigits count value) : char ∈ "0123456789abcdef".toList := by
  have digit : ∀ digit < 16, Nat.digitChar digit ∈ "0123456789abcdef".toList := by decide
  induction count generalizing value with
  | zero => cases member
  | succ count induction =>
      rcases List.mem_append.mp member with member | member
      · exact induction member
      · rw [List.mem_singleton.mp member]
        exact digit _ (Nat.mod_lt value (by decide))

theorem ofBytes_inj : ofBytes left = ofBytes right ↔ hash left = hash right := by
  have bound : ∀ value : UInt32, value.toNat < 16 ^ 8 := UInt32.toNat_lt_size
  rw [ofBytes, ofBytes, hexText, hexText, String.ofList_inj, hexDigits_inj (bound _) (bound _),
    UInt32.toNat_inj]

/-! ## Digests -/

/-- One byte that is changed changes the digest. Bytes that follow two strings leave different
digests different and equal ones equal. A digest is eight small hexadecimal digits. -/
theorem ofBytes_detects (left right : List UInt8) :
    (OneByteApart left right → ofBytes left ≠ ofBytes right) ∧
    (∀ ending, ofBytes (left ++ ending) = ofBytes (right ++ ending) ↔
      ofBytes left = ofBytes right) ∧
    (ofBytes left).length = 8 ∧
    ∀ char ∈ (ofBytes left).toList, char ∈ "0123456789abcdef".toList := by
  refine ⟨fun apart same => ?_, fun ending => ?_, ?_, fun char member => ?_⟩
  · rcases apart.exists_bytes with ⟨front, byte, other, back, rfl, rfl, differ⟩
    exact differ ((hash_byte_inj front back).mp (ofBytes_inj.mp same))
  · rw [ofBytes_inj, ofBytes_inj, hash_append_inj]
  · rw [ofBytes, hexText, String.length_ofList, Json.Reader.length_hexDigits]
  · rw [ofBytes, hexText, String.toList_ofList] at member
    exact mem_hexDigits member

theorem ofBytes_detects_middle :
    OneByteApart [0x6C, 0x69, 0x62] [0x6C, 0x6F, 0x62] ∧
      ofBytes [0x6C, 0x69, 0x62] ≠ ofBytes [0x6C, 0x6F, 0x62] := by
  have apart : OneByteApart [0x6C, 0x69, 0x62] [0x6C, 0x6F, 0x62] := by
    refine ⟨rfl, 1, by decide, fun other different => ?_⟩
    match other with
    | 0 => rfl
    | 1 => exact absurd rfl different
    | _ + 2 => rfl
  exact ⟨apart, (ofBytes_detects _ _).1 apart⟩

/-- The digest of no bytes at all. -/
example : ofBytes [] = "811c9dc5" := by decide

end WorkspaceGraph.Digest
