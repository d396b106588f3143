import WorkspaceGraph.Proofs.Text.Blank
/-!
Texts that are trimmed already. Such a text begins and ends with characters that are no blanks. If
it is cut off, no blank is in front of what is left, so trimming that takes blanks off its end only.
-/

namespace WorkspaceGraph.Text

variable {chars rest : List Char} {char : Char} {text : String}

/-! ## ASCII -/

theorem isAscii_of_le {bound : Char} (below : char ≤ bound) (ascii : bound.toNat < 128) :
    char.toNat < 128 := by
  rw [Char.le_def, UInt32.le_iff_toNat_le] at below
  exact Nat.lt_of_le_of_lt below ascii

@[elab_as_elim]
theorem forall_ascii {motive : Char → Prop} (char : Char) (ascii : char.toNat < 128)
    (each : ∀ code < 128, motive (.ofNat code)) : motive char := by
  have known := each char.toNat ascii
  rwa [Char.ofNat_toNat] at known

/-! ## Trimmed texts -/

structure IsTrimmed (text : String) : Prop where
  notEmpty : text ≠ ""
  trimmed : trim text = text

theorem trimChars_cons (solid : isBlank char = false) :
    trimChars (char :: rest) = dropEndWhile isBlank (char :: rest) := by
  rw [trimChars, skipBlanks, List.dropWhile_cons_of_neg (by simp [solid])]

theorem trimChars_eq_self_iff : trimChars chars = chars ↔
    (∀ char, chars.head? = some char → isBlank char = false) ∧
      ∀ char, chars.getLast? = some char → isBlank char = false := by
  constructor
  · intro same
    refine ⟨fun char begins => ?_, fun char ends => ?_⟩
    · rw [← same, trimChars] at begins
      exact not_drop_of_head? begins
    · rw [← same, trimChars] at ends
      exact not_drop_of_getLast? ends
  · rintro ⟨begins, ends⟩
    cases chars with
    | nil => rfl
    | cons first more =>
        rw [trimChars_cons (begins first rfl)]
        refine List.rdropWhile_eq_self_iff.mpr fun some => ?_
        rw [ends _ (List.getLast?_eq_some_getLast some)]
        decide

theorem isTrimmed_iff : IsTrimmed text ↔ text ≠ "" ∧
    (∀ char, text.toList.head? = some char → isBlank char = false) ∧
      ∀ char, text.toList.getLast? = some char → isBlank char = false := by
  have same : trim text = text ↔ trimChars text.toList = text.toList := by
    rw [trim, ← String.toList_inj, String.toList_ofList]
  rw [← trimChars_eq_self_iff, ← same]
  exact ⟨fun trimmed => ⟨trimmed.notEmpty, trimmed.trimmed⟩, fun parts => ⟨parts.1, parts.2⟩⟩

theorem isTrimmed_of_solid (notEmpty : text ≠ "")
    (solid : ∀ char ∈ text.toList, isBlank char = false) : IsTrimmed text :=
  isTrimmed_iff.mpr ⟨notEmpty, fun char begins => solid char (List.mem_of_head? begins),
    fun char ends => solid char (List.mem_of_getLast? ends)⟩

theorem isTrimmed_of_trimmed? {trimmed : String} (some : trimmed? text = some trimmed) :
    IsTrimmed trimmed := by
  rw [trimmed?] at some
  split at some
  · cases some
  · rename_i notEmpty
    cases some
    refine isTrimmed_iff.mpr ⟨fun empty => notEmpty (by rw [empty]; rfl), fun char begins => ?_,
      fun char ends => ?_⟩
    · rw [trim, String.toList_ofList, trimChars] at begins
      exact not_drop_of_head? begins
    · rw [trim, String.toList_ofList, trimChars] at ends
      exact not_drop_of_getLast? ends

namespace IsTrimmed

theorem toList_ne_nil (trimmed : IsTrimmed text) : text.toList ≠ [] := by
  rw [Ne, String.toList_eq_nil_iff]
  exact trimmed.notEmpty

theorem append {left right : String} (leftTrimmed : IsTrimmed left)
    (rightTrimmed : IsTrimmed right) (between : String) :
    IsTrimmed (left ++ between ++ right) := by
  have leftSome := leftTrimmed.toList_ne_nil
  have rightSome := rightTrimmed.toList_ne_nil
  refine isTrimmed_iff.mpr ⟨?_, fun char begins => ?_, fun char ends => ?_⟩
  · rw [Ne, ← String.toList_eq_nil_iff]
    simp [leftSome]
  · refine (isTrimmed_iff.mp leftTrimmed).2.1 char ?_
    rwa [String.toList_append, String.toList_append, List.append_assoc,
      List.head?_append_of_ne_nil _ leftSome] at begins
  · refine (isTrimmed_iff.mp rightTrimmed).2.2 char ?_
    rwa [String.toList_append, List.getLast?_append_of_ne_nil _ rightSome] at ends

/-- A text that is cut off still has no blank in front. -/
theorem trim_takeChars (trimmed : IsTrimmed text) {count : Nat} (room : 0 < count) :
    trim (takeChars count text) ≠ "" ∧ ∃ blanks : List Char, (∀ char ∈ blanks, isBlank char) ∧
      (takeChars count text).toList = (trim (takeChars count text)).toList ++ blanks := by
  rw [Ne, ← String.toList_eq_nil_iff, trim, takeChars, String.toList_ofList, String.toList_ofList]
  cases shape : text.toList with
  | nil => exact absurd shape trimmed.toList_ne_nil
  | cons first rest =>
      have begins : text.toList.head? = some first := congrArg List.head? shape
      have solid := (isTrimmed_iff.mp trimmed).2.1 first begins
      rw [List.take_cons room, trimChars_cons solid]
      refine ⟨?_, exists_dropped isBlank _⟩
      obtain ⟨more, kept⟩ : ∃ more, dropEndWhile isBlank (first :: rest.take (count - 1)) =
          first :: more := dropEndWhile_cons solid
      rw [kept]
      exact List.cons_ne_nil _ _

theorem takeChars_eq {count : Nat} (within : text.length ≤ count) :
    takeChars count text = text := by
  rw [takeChars, List.take_of_length_le (by rwa [String.length_toList]), String.ofList_toList]

end IsTrimmed

end WorkspaceGraph.Text
