import WorkspaceGraph.Text.Encoding
import WorkspaceGraph.Text.Newline
/-!
UTF-8 read back. Decoding the bytes of a text gives the text, so no two texts have the same bytes.
The bytes of a record are taken for UTF-8 where the encoding has to be found out.
-/

namespace WorkspaceGraph.Text

namespace Utf8

/-! ## First bytes -/

theorem lead_single : ∀ code < 0x80, lead (UInt8.ofNat code) = .single (Char.ofNat code) := by
  decide +kernel

theorem lead_two : ∀ high < 32, 2 ≤ high →
    lead (UInt8.ofNat (high + 0xC0)) = .opens ⟨1, high, 0x80, 0xBF⟩ := by
  decide

theorem lead_three : ∀ high < 16, lead (UInt8.ofNat (high + 0xE0)) = .opens
    ⟨2, high, if high = 0 then 0xA0 else 0x80, if high = 0xD then 0x9F else 0xBF⟩ := by
  decide

theorem lead_four : ∀ high < 5, lead (UInt8.ofNat (high + 0xF0)) = .opens
    ⟨3, high, if high = 0 then 0x90 else 0x80, if high = 4 then 0x8F else 0xBF⟩ := by
  decide

/-! ## Further bytes -/

variable {bits missing low : Nat} {least greatest : UInt8} {rest : List UInt8}

theorem toNat_further (inside : low + 0x80 ≤ greatest.toNat) :
    (UInt8.ofNat (low + 0x80)).toNat = low + 0x80 := by
  have small : low + 0x80 < UInt8.size := Nat.lt_of_le_of_lt inside greatest.toNat_lt
  exact UInt8.toNat_ofNat_of_lt' small

theorem inRange_further (above : least.toNat ≤ low + 0x80)
    (below : low + 0x80 ≤ greatest.toNat) :
    (least ≤ UInt8.ofNat (low + 0x80) && UInt8.ofNat (low + 0x80) ≤ greatest) = true := by
  rw [Bool.and_eq_true, decide_eq_true_iff, decide_eq_true_iff, UInt8.le_iff_toNat_le,
    UInt8.le_iff_toNat_le, toNat_further below]
  exact ⟨above, below⟩

theorem decodeFrom_last (above : least.toNat ≤ low + 0x80) (below : low + 0x80 ≤ greatest.toNat) :
    decodeFrom (some ⟨1, bits, least, greatest⟩) (UInt8.ofNat (low + 0x80) :: rest) =
      some (Char.ofNat (bits * 64 + low)) :: decodeFrom none rest := by
  rw [decodeFrom, if_pos (inRange_further above below), toNat_further below, Nat.add_sub_cancel]
  exact if_pos (Nat.le_refl 1)

theorem decodeFrom_further (above : least.toNat ≤ low + 0x80)
    (below : low + 0x80 ≤ greatest.toNat) :
    decodeFrom (some ⟨missing + 2, bits, least, greatest⟩) (UInt8.ofNat (low + 0x80) :: rest) =
      decodeFrom (some ⟨missing + 1, bits * 64 + low, 0x80, 0xBF⟩) rest := by
  rw [decodeFrom, if_pos (inRange_further above below), toNat_further below, Nat.add_sub_cancel]
  exact if_neg (by simp)

/-! ## Characters -/

theorem code_valid (char : Char) :
    char.toNat < 0x110000 ∧ ¬(0xD800 ≤ char.toNat ∧ char.toNat ≤ 0xDFFF) := by
  have valid : char.toNat < 0xD800 ∨ 0xDFFF < char.toNat ∧ char.toNat < 0x110000 := char.valid
  omega

theorem decodeFrom_single {code : Nat} (bound : code < 0x80) (rest : List UInt8) :
    decodeFrom none (UInt8.ofNat code :: rest) =
      some (Char.ofNat code) :: decodeFrom none rest := by
  rw [decodeFrom, lead_single code bound]

theorem decodeFrom_two {high low : Nat} (highLeast : 2 ≤ high) (highBound : high < 32)
    (lowBound : low < 64) (rest : List UInt8) :
    decodeFrom none (UInt8.ofNat (high + 0xC0) :: UInt8.ofNat (low + 0x80) :: rest) =
      some (Char.ofNat (high * 64 + low)) :: decodeFrom none rest := by
  rw [decodeFrom, lead_two high highBound highLeast]
  dsimp only
  rw [decodeFrom_last (by simp) (by simp; omega)]

theorem decodeFrom_three {high middle low : Nat} (highBound : high < 16)
    (middleBound : middle < 64) (lowBound : low < 64) (short : high = 0 → 32 ≤ middle)
    (noSurrogate : high = 0xD → middle < 32) (rest : List UInt8) :
    decodeFrom none (UInt8.ofNat (high + 0xE0) :: UInt8.ofNat (middle + 0x80) ::
        UInt8.ofNat (low + 0x80) :: rest) =
      some (Char.ofNat ((high * 64 + middle) * 64 + low)) :: decodeFrom none rest := by
  have least : (if high = 0 then 0xA0 else 0x80 : UInt8).toNat ≤ middle + 0x80 := by
    split
    · have bound := short ‹_›
      simp; omega
    · simp
  have greatest : middle + 0x80 ≤ (if high = 0xD then 0x9F else 0xBF : UInt8).toNat := by
    split
    · have bound := noSurrogate ‹_›
      simp; omega
    · simp; omega
  rw [decodeFrom, lead_three high highBound]
  dsimp only
  rw [decodeFrom_further least greatest, decodeFrom_last (by simp) (by simp; omega)]

theorem decodeFrom_four {high upper middle low : Nat} (highBound : high < 5)
    (upperBound : upper < 64) (middleBound : middle < 64) (lowBound : low < 64)
    (short : high = 0 → 16 ≤ upper) (lastPlane : high = 4 → upper < 16) (rest : List UInt8) :
    decodeFrom none (UInt8.ofNat (high + 0xF0) :: UInt8.ofNat (upper + 0x80) ::
        UInt8.ofNat (middle + 0x80) :: UInt8.ofNat (low + 0x80) :: rest) =
      some (Char.ofNat (((high * 64 + upper) * 64 + middle) * 64 + low)) ::
        decodeFrom none rest := by
  have least : (if high = 0 then 0x90 else 0x80 : UInt8).toNat ≤ upper + 0x80 := by
    split
    · have bound := short ‹_›
      simp; omega
    · simp
  have greatest : upper + 0x80 ≤ (if high = 4 then 0x8F else 0xBF : UInt8).toNat := by
    split
    · have bound := lastPlane ‹_›
      simp; omega
    · simp; omega
  rw [decodeFrom, lead_four high highBound]
  dsimp only
  rw [decodeFrom_further least greatest, decodeFrom_further (by simp) (by simp; omega),
    decodeFrom_last (by simp) (by simp; omega)]

theorem decodeFrom_char (char : Char) (rest : List UInt8) :
    decodeFrom none (String.utf8EncodeChar char ++ rest) = some char :: decodeFrom none rest := by
  have valid := code_valid char
  have whole : Char.ofNat char.toNat = char := Char.ofNat_toNat char
  have bytes : String.utf8EncodeChar char =
      if char.toNat ≤ 0x7f then [UInt8.ofNat char.toNat]
      else if char.toNat ≤ 0x7ff then
        [UInt8.ofNat (char.toNat / 64 % 0x20 + 0xc0), UInt8.ofNat (char.toNat % 0x40 + 0x80)]
      else if char.toNat ≤ 0xffff then
        [UInt8.ofNat (char.toNat / 4096 % 0x10 + 0xe0),
          UInt8.ofNat (char.toNat / 64 % 0x40 + 0x80), UInt8.ofNat (char.toNat % 0x40 + 0x80)]
      else
        [UInt8.ofNat (char.toNat / 262144 % 0x08 + 0xf0),
          UInt8.ofNat (char.toNat / 4096 % 0x40 + 0x80),
          UInt8.ofNat (char.toNat / 64 % 0x40 + 0x80),
          UInt8.ofNat (char.toNat % 0x40 + 0x80)] := rfl
  -- From here on it is arithmetic: the parts of the code are in range and add up to it again.
  generalize char.toNat = code at valid whole bytes
  rw [bytes]
  split
  · rw [List.cons_append, List.nil_append, decodeFrom_single (by omega), whole]
  split
  · have sum : code / 64 % 0x20 * 64 + code % 0x40 = code := by omega
    simp only [List.cons_append, List.nil_append]
    rw [decodeFrom_two (by omega) (by omega) (by omega), sum, whole]
  split
  · have sum : (code / 4096 % 0x10 * 64 + code / 64 % 0x40) * 64 + code % 0x40 = code := by omega
    simp only [List.cons_append, List.nil_append]
    rw [decodeFrom_three (by omega) (by omega) (by omega) (by omega) (by omega), sum, whole]
  · have sum : ((code / 262144 % 0x08 * 64 + code / 4096 % 0x40) * 64 + code / 64 % 0x40) * 64 +
        code % 0x40 = code := by omega
    simp only [List.cons_append, List.nil_append]
    rw [decodeFrom_four (by omega) (by omega) (by omega) (by omega) (by omega) (by omega), sum,
      whole]

/-! ## Texts -/

theorem decodeFrom_chars (chars : List Char) :
    decodeFrom none (chars.flatMap String.utf8EncodeChar) = chars.map some := by
  induction chars with
  | nil => rfl
  | cons char rest induction =>
      rw [List.flatMap_cons, decodeFrom_char, induction, List.map_cons]

theorem decode?_encode (text : String) : decode? (encode text) = some text := by
  have chars : (text.toList.map some).mapM id = some text.toList := by
    rw [List.mapM_map]
    exact (List.mapM_pure (f := id)).trans (by simp)
  rw [decode?, encode, decodeFrom_chars, chars, Option.map_some, String.ofList_toList]

theorem encode_inj {left right : String} : encode left = encode right ↔ left = right := by
  constructor
  · intro same
    have texts := congrArg decode? same
    rw [decode?_encode, decode?_encode] at texts
    exact Option.some.inj texts
  · exact congrArg encode

end Utf8

/-! ## Files -/

theorem unifyNewlines_of_not_mem {chars : List Char} (noReturn : '\r' ∉ chars) :
    unifyNewlines chars = chars := by
  induction chars with
  | nil => rfl
  | cons char rest induction =>
      have parts := List.ne_and_not_mem_of_not_mem_cons noReturn
      have unify : unifyNewlines (char :: rest) = char :: unifyNewlines rest := by
        rw [unifyNewlines.eq_def]
        split
        · cases ‹char :: rest = []›
        · rename_i same
          cases same
          exact absurd rfl parts.1
        · rename_i same
          cases same
          exact absurd rfl parts.1
        · rename_i same
          cases same
          rfl
      rw [unify, induction parts.2]

theorem ofFile?_encode {text : String} (noReturn : '\r' ∉ text.toList) :
    ofFile? (Utf8.encode text) = some text := by
  rw [ofFile?, Utf8.decode?_encode, Option.map_some, unifyNewlines_of_not_mem noReturn,
    String.ofList_toList]

theorem ofFileLenient_encode {text : String} (noReturn : '\r' ∉ text.toList) :
    ofFileLenient (Utf8.encode text) = text := by
  have decoded : (Utf8.decodeLenient (Utf8.encode text)).toList = text.toList := by
    rw [Utf8.decodeLenient, Utf8.encode, Utf8.decodeFrom_chars, String.toList_ofList, List.map_map]
    exact List.map_id _
  rw [ofFileLenient, decoded, unifyNewlines_of_not_mem noReturn, String.ofList_toList]

/-! ## Encodings found out -/

/-- The bytes of a record with fields have neither a byte order mark nor zeros at the front. -/
theorem detect_record (rest : List UInt8) :
    Encoding.detect (0x7B :: 0x22 :: rest) = (.utf8, 0x7B :: 0x22 :: rest) := by
  rcases rest with _ | ⟨third, _ | ⟨fourth, more⟩⟩
  · rfl
  · rfl
  · rfl

theorem decodeDetected?_record (rest : List Char) :
    decodeDetected? (Utf8.encode (String.ofList ('\x7b' :: '"' :: rest))) =
      some (String.ofList ('\x7b' :: '"' :: rest)) := by
  have bytes : Utf8.encode (String.ofList ('\x7b' :: '"' :: rest)) =
      0x7B :: 0x22 :: rest.flatMap String.utf8EncodeChar := by
    rw [Utf8.encode, String.toList_ofList]
    rfl
  have detected : Encoding.detect (Utf8.encode (String.ofList ('\x7b' :: '"' :: rest))) =
      (.utf8, Utf8.encode (String.ofList ('\x7b' :: '"' :: rest))) := by
    rw [bytes, detect_record]
  rw [decodeDetected?, detected]
  exact Utf8.decode?_encode _

end WorkspaceGraph.Text
