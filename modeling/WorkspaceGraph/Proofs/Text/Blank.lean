import Mathlib.Data.List.DropRight
import WorkspaceGraph.Text.Blank
/-!
Trimmed texts. Blanks around a text make no difference to what it is after trimming.
A text that is abbreviated keeps to the limit.
-/

namespace WorkspaceGraph.Text

/-! ## Dropping at the end -/

section

variable {drop : Char → Bool} {chars : List Char} {char : Char}

theorem dropEndWhile_append {after : List Char} (dropped : ∀ char ∈ after, drop char) :
    dropEndWhile drop (chars ++ after) = dropEndWhile drop chars := by
  rw [dropEndWhile, dropEndWhile, List.reverse_append, List.dropWhile_append_of_pos]
  intro char member
  exact dropped char (List.mem_reverse.mp member)

theorem dropEndWhile_concat (front : List Char) {last : Char}
    (kept : drop last = false) : dropEndWhile drop (front ++ [last]) = front ++ [last] := by
  rw [dropEndWhile, List.reverse_append, List.reverse_singleton, List.singleton_append,
    List.dropWhile_cons_of_neg (by simp [kept]), List.reverse_cons, List.reverse_reverse]

theorem dropEndWhile_isPrefix (drop : Char → Bool) (chars : List Char) :
    dropEndWhile drop chars <+: chars := List.rdropWhile_prefix drop chars

theorem mem_of_mem_dropEndWhile (member : char ∈ dropEndWhile drop chars) : char ∈ chars :=
  (dropEndWhile_isPrefix drop chars).subset member

theorem exists_dropped (drop : Char → Bool) (chars : List Char) :
    ∃ dropped : List Char, (∀ char ∈ dropped, drop char) ∧
      chars = dropEndWhile drop chars ++ dropped :=
  ⟨chars.rtakeWhile drop, fun _ => List.mem_rtakeWhile_imp,
    List.rdropWhile_append_rtakeWhile.symm⟩

theorem dropEndWhile_cons {rest : List Char} (kept : drop char = false) :
    ∃ more, dropEndWhile drop (char :: rest) = char :: more := by
  have begins := dropEndWhile_isPrefix drop (char :: rest)
  cases shape : dropEndWhile drop (char :: rest) with
  | nil =>
      have dropped := List.rdropWhile_eq_nil_iff.mp shape char (List.mem_cons_self ..)
      exact absurd dropped (by simp [kept])
  | cons first more =>
      rw [shape] at begins
      exact ⟨more, by rw [(List.cons_prefix_cons.mp begins).1]⟩

theorem not_drop_of_head? (begins : (dropEndWhile drop (chars.dropWhile drop)).head? = some char) :
    drop char = false := by
  rcases List.head?_eq_some_iff.mp begins with ⟨more, shape⟩
  have ⟨dropped, whole⟩ := shape ▸ dropEndWhile_isPrefix drop (chars.dropWhile drop)
  have kept := List.head?_dropWhile_not drop chars
  rw [← whole] at kept
  simpa using kept

theorem not_drop_of_getLast? (ends : (dropEndWhile drop chars).getLast? = some char) :
    drop char = false := by
  rw [dropEndWhile, List.getLast?_reverse] at ends
  have kept := List.head?_dropWhile_not drop chars.reverse
  rw [ends] at kept
  simpa using kept

end

/-! ## Trimming -/

def Padded (text other : String) : Prop :=
  ∃ before after : List Char, (∀ char ∈ before, isBlank char) ∧ (∀ char ∈ after, isBlank char) ∧
    other.toList = before ++ (text.toList ++ after)

theorem Padded.of_blank {text other : String} (before after : List Char)
    (blank : (before ++ after).all isBlank)
    (whole : other.toList = before ++ (text.toList ++ after)) : Padded text other := by
  rw [List.all_append, Bool.and_eq_true, List.all_eq_true, List.all_eq_true] at blank
  exact ⟨before, after, blank.1, blank.2, whole⟩

theorem Padded.refl (text : String) : Padded text text := .of_blank [] [] rfl (by simp)

theorem trimChars_append {chars after : List Char} (blank : ∀ char ∈ after, isBlank char) :
    trimChars (chars ++ after) = trimChars chars := by
  rw [trimChars, trimChars, skipBlanks, skipBlanks, List.dropWhile_append]
  split
  · rename_i nothing
    have rest : after.dropWhile isBlank = [] := List.dropWhile_eq_nil_iff.mpr blank
    rw [rest, List.isEmpty_iff.mp nothing]
  · exact dropEndWhile_append blank

theorem Padded.trim_eq {text other : String} (padded : Padded text other) :
    trim other = trim text := by
  rcases padded with ⟨before, after, beforeBlank, afterBlank, whole⟩
  have skipped : trimChars (before ++ (text.toList ++ after)) =
      trimChars (text.toList ++ after) := by
    rw [trimChars, trimChars, skipBlanks, skipBlanks, List.dropWhile_append_of_pos beforeBlank]
  rw [trim, trim, whole, skipped, trimChars_append afterBlank]

/-! ## Blank texts -/

theorem trimChars_eq_nil_iff {chars : List Char} :
    trimChars chars = [] ↔ ∀ char ∈ chars, isBlank char := by
  rw [trimChars, dropEndWhile, List.reverse_eq_nil_iff, List.dropWhile_eq_nil_iff, skipBlanks]
  constructor
  · intro blank
    rw [← List.dropWhile_eq_nil_iff]
    cases rest : chars.dropWhile isBlank with
    | nil => rfl
    | cons char more =>
        have notBlank := List.head?_dropWhile_not isBlank chars
        rw [rest] at notBlank blank
        have first := blank char (by simp)
        simp [first] at notBlank
  · intro blank char member
    exact blank char ((List.dropWhile_sublist _).subset (List.mem_reverse.mp member))

theorem trimmed?_isNone_iff {text : String} :
    (trimmed? text).isNone = true ↔ ∀ char ∈ text.toList, isBlank char := by
  rw [← trimChars_eq_nil_iff, trimmed?, trim]
  split
  · rename_i empty
    rw [String.isEmpty_iff] at empty
    simpa using congrArg String.toList empty
  · rename_i some
    rw [String.isEmpty_iff] at some
    refine iff_of_false (by simp) fun none => some ?_
    rw [none]

/-! ## Abbreviations -/

theorem length_abbreviate_le {limit keep : Nat} (room : keep + 3 ≤ limit) (text : String) :
    (abbreviate limit keep text).length ≤ limit := by
  rw [abbreviate]
  split
  · have kept : (text.toList.take keep).length ≤ keep := List.length_take_le ..
    have dots : "...".length = 3 := by decide
    rw [String.length_append, takeChars, String.length_ofList, dots]
    omega
  · omega

end WorkspaceGraph.Text
