import Mathlib.Data.List.TakeDrop
import WorkspaceGraph.Json.Reader
/-!
Whole numbers read back. A number's digits are read as that number if what follows cannot be a part
of a number.
-/

namespace WorkspaceGraph.Json.Reader

def EndsNumber (rest : List Char) : Prop :=
  ∀ char ∈ rest.head?, isDigit char = false ∧ char ≠ '.' ∧ char ≠ 'e' ∧ char ≠ 'E'

/-! ## Digits -/

theorem isDigit_eq (char : Char) : isDigit char = char.isDigit := by
  rw [isDigit, Char.isDigit]
  rfl

theorem isDigit_of_mem_toDigits {number : Nat} {char : Char}
    (member : char ∈ Nat.toDigits 10 number) : isDigit char = true := by
  rw [isDigit_eq]
  exact Nat.isDigit_of_mem_toDigits (by decide) (by decide) member

theorem digitsValue_toDigits (number : Nat) : digitsValue (Nat.toDigits 10 number) = number := by
  have value : Nat.ofDigitChars 10 (Nat.toDigits 10 number) 0 = number :=
    Nat.ofDigitChars_ten_toDigits
  simpa [digitsValue, Nat.ofDigitChars_eq_foldl, Nat.mul_comm] using value

theorem toDigits_pos {number : Nat} (positive : 0 < number) :
    ∃ first rest, Nat.toDigits 10 number = first :: rest ∧ first ≠ '0' := by
  have digit : ∀ digit < 10, 0 < digit → Nat.digitChar digit ≠ '0' := by decide
  induction number using Nat.strongRecOn with
  | ind number induction =>
      rw [Nat.toDigits_eq_if (by decide)]
      split
      · exact ⟨_, [], rfl, digit number ‹_› positive⟩
      · rcases induction (number / 10) (by omega) (by omega) with ⟨first, rest, same, different⟩
        exact ⟨first, rest ++ _, by rw [same, List.cons_append], different⟩

theorem toDigits_ne_nil (number : Nat) : Nat.toDigits 10 number ≠ [] := by
  rw [Nat.toDigits_eq_if (by decide)]
  split <;> simp

theorem toList_ofNat (number : Nat) :
    (toString (Int.ofNat number)).toList = Nat.toDigits 10 number :=
  String.toList_ofList

theorem toList_negSucc (number : Nat) :
    (toString (Int.negSucc number)).toList = '-' :: Nat.toDigits 10 (number + 1) := by
  change ("-" ++ String.ofList (Nat.toDigits 10 (number + 1))).toList = _
  rw [String.toList_append]
  exact congrArg _ String.toList_ofList

/-! ## Parts of a number -/

variable {rest : List Char}

theorem EndsNumber.takeWhile (ends : EndsNumber rest) : rest.takeWhile isDigit = [] := by
  cases rest with
  | nil => rfl
  | cons char rest => simp [(ends char rfl).1]

theorem EndsNumber.dropWhile (ends : EndsNumber rest) : rest.dropWhile isDigit = rest := by
  cases rest with
  | nil => rfl
  | cons char rest => simp [(ends char rfl).1]

theorem fractionDigits_of_ends (ends : EndsNumber rest) : fractionDigits rest = ([], rest) := by
  cases rest with
  | nil => rfl
  | cons char rest =>
      have noPoint := (ends char rfl).2.1
      simp [fractionDigits, noPoint]

theorem exponentValue_of_ends (ends : EndsNumber rest) : exponentValue rest = (none, rest) := by
  cases rest with
  | nil => rfl
  | cons char rest =>
      have noMark := (ends char rfl).2.2
      simp [exponentValue, noMark.1, noMark.2]

theorem wholeDigits_toDigits (number : Nat) (ends : EndsNumber rest) :
    wholeDigits (Nat.toDigits 10 number ++ rest) = some (Nat.toDigits 10 number, rest) := by
  rcases Nat.eq_zero_or_pos number with rfl | positive
  · rfl
  · rcases toDigits_pos positive with ⟨first, more, same, notZero⟩
    have digits : ∀ char ∈ first :: more, isDigit char = true :=
      fun _ member => isDigit_of_mem_toDigits (same ▸ member)
    rcases List.forall_mem_cons.mp digits with ⟨firstDigit, moreDigits⟩
    rw [same]
    simp [wholeDigits, firstDigit, List.takeWhile_append_of_pos moreDigits,
      List.dropWhile_append_of_pos moreDigits, ends.takeWhile, ends.dropWhile]

/-! ## Numbers -/

theorem readUnsigned_toDigits (negative : Bool) (number : Nat) (ends : EndsNumber rest) :
    readUnsigned negative (Nat.toDigits 10 number ++ rest) =
      some (.int (if negative then -(number : Int) else number), rest) := by
  simp [readUnsigned, wholeDigits_toDigits number ends, fractionDigits_of_ends ends,
    exponentValue_of_ends ends, digitsValue_toDigits]

theorem ne_of_isDigit {char digit : Char} (shown : isDigit digit = true)
    (notDigit : isDigit char = false) : char ≠ digit := by
  rintro rfl
  rw [shown] at notDigit
  cases notDigit

theorem readWord_of_digit {digit : Char} (shown : isDigit digit = true) :
    readWord (digit :: rest) = none ∧ readWord ('-' :: digit :: rest) = none := by
  have differs : ∀ letter, isDigit letter = false → letter ≠ digit :=
    fun letter => ne_of_isDigit shown
  constructor
  · simp [readWord, words, differs 'n' rfl, differs 't' rfl, differs 'f' rfl, differs 'N' rfl,
      differs 'I' rfl, differs '-' rfl]
  · simp [readWord, words, differs 'I' rfl]

theorem readScalar_toDigits (number : Nat) (ends : EndsNumber rest) :
    readScalar (Nat.toDigits 10 number ++ rest) = .ok (.int number, rest) := by
  have read := readUnsigned_toDigits false number ends
  rcases List.exists_cons_of_ne_nil (toDigits_ne_nil number) with ⟨first, more, same⟩
  have shown : isDigit first = true := isDigit_of_mem_toDigits (by rw [same]; simp)
  rw [same, List.cons_append] at read ⊢
  rw [readScalar, (readWord_of_digit shown).1, read]
  · rfl
  · intro after equal
    cases equal
    cases shown

theorem readScalar_negative (number : Nat) (ends : EndsNumber rest) :
    readScalar ('-' :: (Nat.toDigits 10 number ++ rest)) = .ok (.int (-number), rest) := by
  have read := readUnsigned_toDigits true number ends
  rcases List.exists_cons_of_ne_nil (toDigits_ne_nil number) with ⟨first, more, same⟩
  have shown : isDigit first = true := isDigit_of_mem_toDigits (by rw [same]; simp)
  rw [same, List.cons_append] at read ⊢
  rw [readScalar, (readWord_of_digit shown).2]
  simp [read]

theorem readScalar_int (value : Int) (ends : EndsNumber rest) :
    readScalar ((toString value).toList ++ rest) = .ok (.int value, rest) := by
  cases value with
  | ofNat number =>
      rw [toList_ofNat, readScalar_toDigits number ends]
      rfl
  | negSucc number =>
      rw [toList_negSucc, List.cons_append, readScalar_negative (number + 1) ends]
      rfl

end WorkspaceGraph.Json.Reader
