import WorkspaceGraph.Proofs.Json.RoundTrip
/-!
Lines of written values. No style writes a carriage return, neither in a text nor between the parts
of a value, so a value is the same after the ends of its lines have been unified.
-/

namespace WorkspaceGraph.Json

open Writer Reader

variable {style : Style} {depth : Nat}

/-! ## Texts and numbers -/

theorem return_not_mem_hexDigits (count value : Nat) : '\r' ∉ Text.hexDigits count value := by
  have digit : ∀ digit < 16, '\r' ≠ Nat.digitChar digit := by decide
  induction count generalizing value with
  | zero => exact List.not_mem_nil
  | succ count induction =>
      simp [Text.hexDigits, induction, digit _ (Nat.mod_lt value (by decide : 0 < 16))]

theorem return_not_mem_encodeChar (asciiOnly : Bool) (char : Char) :
    '\r' ∉ encodeChar asciiOnly char := by
  rcases encodeChar_cases asciiOnly char with
    ⟨mark, written, -, meant⟩ | written | ⟨written, -, -, printable⟩
  · rw [written]
    intro member
    simp only [List.mem_cons, List.not_mem_nil, or_false] at member
    rcases member with backslash | rfl
    · cases backslash
    · cases meant
  · rw [written, codeEscape]
    split <;> simp [unitEscape, return_not_mem_hexDigits]
  · rw [written, List.mem_singleton]
    rintro rfl
    exact absurd printable (by decide)

theorem return_not_mem_quote (asciiOnly : Bool) (value : String) :
    '\r' ∉ quote asciiOnly value := by
  simp [quote, return_not_mem_encodeChar]

theorem return_not_mem_toDigits (number : Nat) : '\r' ∉ Nat.toDigits 10 number := by
  intro member
  have shown := isDigit_of_mem_toDigits member
  cases shown

theorem return_not_mem_int (value : Int) : '\r' ∉ (toString value).toList := by
  cases value with
  | ofNat number =>
      rw [toList_ofNat]
      exact return_not_mem_toDigits number
  | negSucc number =>
      rw [toList_negSucc]
      simp [return_not_mem_toDigits]

/-! ## Values -/

theorem return_not_mem_newline : '\r' ∉ newline style depth := by
  unfold newline
  split
  · exact List.not_mem_nil
  · simp

variable (separator : '\r' ∉ style.separator.toList) (colon : '\r' ∉ style.colon.toList)

include separator in
theorem return_not_mem_writeItems {items : List Json}
    (each : ∀ item ∈ items, ∀ depth, '\r' ∉ write style depth item) :
    '\r' ∉ writeItems style depth items := by
  induction items with
  | nil => simp [writeItems]
  | cons item others induction =>
      rcases List.forall_mem_cons.mp each with ⟨first, each⟩
      simp [writeItems, separator, return_not_mem_newline, first, induction each]

include separator colon in
theorem return_not_mem_writeFields {fields : List (String × Json)}
    (each : ∀ field ∈ fields, ∀ depth, '\r' ∉ write style depth field.2) :
    '\r' ∉ writeFields style depth fields := by
  induction fields with
  | nil => simp [writeFields]
  | cons field others induction =>
      rcases List.forall_mem_cons.mp each with ⟨first, each⟩
      simp [writeFields, separator, colon, return_not_mem_newline, return_not_mem_quote, first,
        induction each]

include separator colon in
theorem return_not_mem_write {value : Json} (plain : Plain value) :
    ∀ depth, '\r' ∉ write style depth value := by
  induction plain with
  | null => simp [write]
  | bool value => intro depth; cases value <;> simp [write]
  | int value => intro depth; rw [write]; exact return_not_mem_int value
  | text value => intro depth; rw [write]; exact return_not_mem_quote _ value
  | list items each induction =>
      intro depth
      cases items with
      | nil => simp [write]
      | cons item others =>
          rcases List.forall_mem_cons.mp induction with ⟨first, induction⟩
          simp [write, return_not_mem_newline, first,
            return_not_mem_writeItems separator induction]
  | record fields names each induction =>
      intro depth
      cases fields with
      | nil => simp [write]
      | cons field others =>
          rcases List.forall_mem_cons.mp induction with ⟨first, induction⟩
          simp [write, return_not_mem_newline, return_not_mem_quote, colon, first,
            return_not_mem_writeFields separator colon induction]

end WorkspaceGraph.Json
