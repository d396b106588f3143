import WorkspaceGraph.Json.Reader
import WorkspaceGraph.Json.Writer
import WorkspaceGraph.Proofs.Text.Utf8
/-!
Texts read back. Every character is read from its written form, whether it stands for itself, behind
a backslash or by the codes of its units, and so a text is read from the one between its quotes.
-/

namespace WorkspaceGraph.Json

namespace Reader

open Writer

/-! ## Units -/

theorem hexValue_digitChar : ∀ digit < 16, hexValue (Nat.digitChar digit) = some digit := by
  decide

theorem length_hexDigits (count value : Nat) : (Text.hexDigits count value).length = count := by
  induction count generalizing value with
  | zero => rfl
  | succ count induction => simp [Text.hexDigits, induction]

theorem unit?_hexDigits {unit : Nat} (bound : unit < 0x10000) :
    unit? (Text.hexDigits 4 unit) = some unit := by
  have sum : ((unit / 16 / 16 / 16 % 16 * 16 + unit / 16 / 16 % 16) * 16 + unit / 16 % 16) * 16 +
      unit % 16 = unit := by omega
  have digit : ∀ value, hexValue (Nat.digitChar (value % 16)) = some (value % 16) :=
    fun value => hexValue_digitChar _ (Nat.mod_lt value (by decide))
  simp [Text.hexDigits, unit?, digit, sum]

theorem ofUnit_toNat (char : Char) : ofUnit char.toNat = char := by
  have valid : char.toNat.isValidChar := char.valid
  rw [ofUnit, if_pos valid, Char.ofNat_toNat]

/-! ## Escapes -/

variable {opening rest : List Char} {asciiOnly : Bool} {char : Char}

theorem readChars_skip (skipped : List Char) :
    readChars opening skipped.length (skipped ++ rest) = readChars opening 0 rest := by
  induction skipped with
  | nil => rfl
  | cons char skipped induction => rw [List.length_cons, List.cons_append, readChars, induction]

theorem readChars_escape {escape : List Char} {used : Nat} (length : escape.length = used)
    (read : readEscape opening (escape ++ rest) = .ok (char, used)) :
    readChars opening 0 ('\\' :: (escape ++ rest)) =
      (readChars opening 0 rest).map fun (chars, after) => (char :: chars, after) := by
  rw [readChars.eq_def]
  simp only [read]
  rw [← length, readChars_skip]
  rfl

theorem readEscape_unit {unit : Nat} (bound : unit < 0x10000)
    (single : isHighSurrogate unit = false) (continued : rest ≠ []) :
    readEscape opening ('u' :: Text.hexDigits 4 unit ++ rest) = .ok (ofUnit unit, 5) := by
  have digits : (Text.hexDigits 4 unit ++ rest).take 4 = Text.hexDigits 4 unit :=
    List.take_left' (length_hexDigits 4 unit)
  have after : (Text.hexDigits 4 unit ++ rest).drop 4 = rest :=
    List.drop_left' (length_hexDigits 4 unit)
  rw [List.cons_append, readEscape, digits, after, unit?_hexDigits bound]
  simp [single, continued]

theorem readEscape_pair {high low : Nat} (highBound : high < 0x400) (lowBound : low < 0x400)
    (continued : rest ≠ []) :
    readEscape opening ('u' :: Text.hexDigits 4 (0xD800 + high) ++
        ('\\' :: 'u' :: Text.hexDigits 4 (0xDC00 + low)) ++ rest) =
      .ok (Char.ofNat (0x10000 + high * 0x400 + low), 11) := by
  have first : unit? (Text.hexDigits 4 (0xD800 + high)) = some (0xD800 + high) :=
    unit?_hexDigits (by omega)
  have second : unit? (Text.hexDigits 4 (0xDC00 + low)) = some (0xDC00 + low) :=
    unit?_hexDigits (by omega)
  have isHigh : isHighSurrogate (0xD800 + high) = true := by
    simp [isHighSurrogate]; omega
  have isLow : isLowSurrogate (0xDC00 + low) = true := by
    simp [isLowSurrogate]; omega
  simp only [Text.hexDigits, List.nil_append, List.cons_append] at first second ⊢
  simp only [readEscape, List.drop, List.take, first, second, isHigh, isLow,
    Nat.add_sub_cancel_left, if_pos]
  simp [continued]

/-! ## Characters -/

theorem readChars_unitEscape {unit : Nat} (bound : unit < 0x10000)
    (single : isHighSurrogate unit = false) (continued : rest ≠ []) :
    readChars opening 0 (unitEscape unit ++ rest) =
      (readChars opening 0 rest).map fun (chars, after) => (ofUnit unit :: chars, after) := by
  have length : ('u' :: Text.hexDigits 4 unit).length = 5 := by
    rw [List.length_cons, length_hexDigits]
  exact readChars_escape length (readEscape_unit bound single continued)

theorem readChars_codeEscape (continued : rest ≠ []) :
    readChars opening 0 (codeEscape char ++ rest) =
      (readChars opening 0 rest).map fun (chars, after) => (char :: chars, after) := by
  have valid := Text.Utf8.code_valid char
  unfold codeEscape
  split
  · -- No character is a surrogate, so its one unit does not wait for another.
    have single : isHighSurrogate char.toNat = false := by
      simp [isHighSurrogate]; omega
    rw [readChars_unitEscape ‹_› single continued, ofUnit_toNat]
  · have high : (char.toNat - 0x10000) / 0x400 < 0x400 := by omega
    have low : (char.toNat - 0x10000) % 0x400 < 0x400 := by omega
    have sum : 0x10000 + (char.toNat - 0x10000) / 0x400 * 0x400 +
        (char.toNat - 0x10000) % 0x400 = char.toNat := by omega
    have read := @readEscape_pair opening rest _ _ high low continued
    rw [sum, Char.ofNat_toNat] at read
    apply readChars_escape _ read
    simp [length_hexDigits]

theorem encodeChar_cases (asciiOnly : Bool) (char : Char) :
    (∃ mark, encodeChar asciiOnly char = ['\\', mark] ∧ mark ≠ 'u' ∧
        simpleEscape mark = some char) ∨
      encodeChar asciiOnly char = codeEscape char ∨
      (encodeChar asciiOnly char = [char] ∧ char ≠ '"' ∧ char ≠ '\\' ∧ 0x20 ≤ char.toNat) := by
  rw [encodeChar.eq_def]
  split
  · exact .inl ⟨_, rfl, by decide, rfl⟩
  · exact .inl ⟨_, rfl, by decide, rfl⟩
  · exact .inl ⟨_, rfl, by decide, rfl⟩
  · exact .inl ⟨_, rfl, by decide, rfl⟩
  · exact .inl ⟨_, rfl, by decide, rfl⟩
  · exact .inl ⟨_, rfl, by decide, rfl⟩
  · exact .inl ⟨_, rfl, by decide, rfl⟩
  · rename_i notQuote notBackslash _ _ _ _ _
    split
    · exact .inr (.inl rfl)
    · rename_i plain
      have printable : 0x20 ≤ char.toNat := by
        simp at plain
        exact plain.1
      exact .inr (.inr ⟨rfl, notQuote, notBackslash, printable⟩)

theorem readChars_encodeChar (continued : rest ≠ []) :
    readChars opening 0 (encodeChar asciiOnly char ++ rest) =
      (readChars opening 0 rest).map fun (chars, after) => (char :: chars, after) := by
  rcases encodeChar_cases asciiOnly char with
    ⟨mark, written, notUnit, meant⟩ | written | ⟨written, notQuote, notBackslash, printable⟩
  · have read : readEscape opening ([mark] ++ rest) = .ok (char, 1) := by
      rw [readEscape.eq_def]
      split
      · cases ‹[mark] ++ rest = []›
      · cases ‹[mark] ++ rest = _›
        exact absurd rfl notUnit
      · cases ‹[mark] ++ rest = _›
        rw [meant]
    rw [written]
    exact readChars_escape rfl read
  · rw [written, readChars_codeEscape continued]
  · rw [written, List.cons_append, List.nil_append, readChars.eq_def]
    simp [notQuote, notBackslash, Nat.not_lt.mpr printable]

/-! ## Texts -/

theorem readChars_content (chars : List Char) :
    readChars opening 0 (chars.flatMap (encodeChar asciiOnly) ++ '"' :: rest) =
      .ok (chars, rest) := by
  induction chars with
  | nil => rfl
  | cons char chars induction =>
      rw [List.flatMap_cons, List.append_assoc, readChars_encodeChar (by simp), induction]
      rfl

theorem readText_quote (value : String) :
    readText (quote asciiOnly value ++ rest) = .ok (value, rest) := by
  have written : quote asciiOnly value ++ rest =
      '"' :: (value.toList.flatMap (encodeChar asciiOnly) ++ '"' :: rest) := by
    simp [quote]
  rw [written, readText, List.drop_one, List.tail_cons, readChars_content]
  simp [Except.map]

end Reader

end WorkspaceGraph.Json
