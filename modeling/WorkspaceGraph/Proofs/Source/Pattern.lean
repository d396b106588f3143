import Mathlib.Data.List.Infix
import Mathlib.Data.List.TakeDrop
import Mathlib.Data.List.TakeWhile
import WorkspaceGraph.Source.Pattern
/-!
Recognisers told by what they recognise: each takes a text apart at its front. A search finds the
first place where its recogniser succeeds.
-/

namespace WorkspaceGraph.Source

def Blank (chars : List Char) : Prop := ∀ char ∈ chars, Text.isBlank char = true

def Unquoted (chars : List Char) : Prop := ∀ char ∈ chars, isQuote char = false

instance (chars : List Char) : Decidable (Blank chars) :=
  List.decidableBAll (fun char => Text.isBlank char = true) chars

instance (chars : List Char) : Decidable (Unquoted chars) :=
  List.decidableBAll (fun char => isQuote char = false) chars

variable {chars before front rest content gap : List Char} {char : Char} {word : String}

/-! ## Words, blanks and quotes -/

theorem afterWord?_eq_some_iff :
    afterWord? word chars = some rest ↔ chars = word.toList ++ rest := by
  rw [afterWord?]
  constructor
  · intro taken
    split at taken
    · rename_i begins
      rw [← Option.some.inj taken, ← String.length_toList]
      exact List.prefix_append_drop (List.isPrefixOf_iff_prefix.mp begins)
    · cases taken
  · rintro rfl
    rw [if_pos (List.isPrefixOf_iff_prefix.mpr (List.prefix_append ..)), ← String.length_toList,
      List.drop_left]

theorem afterChar?_eq_some_iff : afterChar? char chars = some rest ↔ chars = char :: rest := by
  cases chars with
  | nil => simp [afterChar?]
  | cons first more =>
      rw [afterChar?]
      split
      · rename_i same
        simp [beq_iff_eq.mp same]
      · rename_i different
        simp [beq_iff_eq.not.mp different]

theorem skipBlanks_append (blank : Blank gap) :
    Text.skipBlanks (gap ++ rest) = Text.skipBlanks rest :=
  List.dropWhile_append_of_pos blank

theorem skipBlanks_cons (notBlank : Text.isBlank char = false) :
    Text.skipBlanks (char :: rest) = char :: rest :=
  List.dropWhile_cons_of_neg (by simp [notBlank])

theorem skipBlanks_gap (blank : Blank gap) (notBlank : Text.isBlank char = false) :
    Text.skipBlanks (gap ++ char :: rest) = char :: rest := by
  rw [skipBlanks_append blank, skipBlanks_cons notBlank]

theorem exists_gap (chars : List Char) :
    ∃ gap, Blank gap ∧ chars = gap ++ Text.skipBlanks chars :=
  ⟨chars.takeWhile Text.isBlank, fun _ member => List.mem_takeWhile_imp member,
    List.takeWhile_append_dropWhile.symm⟩

theorem afterBlanks?_append (blank : Blank gap) (notEmpty : gap ≠ [])
    (notBlank : Text.isBlank char = false) :
    afterBlanks? (gap ++ char :: rest) = some (char :: rest) := by
  cases gap with
  | nil => exact absurd rfl notEmpty
  | cons first more =>
      have parts := List.forall_mem_cons.mp blank
      rw [List.cons_append, afterBlanks?, if_pos parts.1, skipBlanks_append parts.2,
        skipBlanks_cons notBlank]

theorem exists_of_afterBlanks? (taken : afterBlanks? chars = some rest) :
    ∃ gap, Blank gap ∧ gap ≠ [] ∧ chars = gap ++ rest := by
  cases chars with
  | nil => cases taken
  | cons first more =>
      rw [afterBlanks?] at taken
      split at taken
      · rename_i blank
        cases taken
        have ⟨gap, gapBlank, shape⟩ := exists_gap more
        exact ⟨first :: gap, List.forall_mem_cons.mpr ⟨blank, gapBlank⟩, by simp,
          congrArg (first :: ·) shape⟩
      · cases taken

theorem span_unquoted (unquoted : Unquoted front) (quote : isQuote char = true) :
    (front ++ char :: rest).span (!isQuote ·) = (front, char :: rest) := by
  have passes : ∀ char ∈ front, (!isQuote char) = true := fun char member => by
    simp [unquoted char member]
  rw [List.span_eq_takeWhile_dropWhile, List.takeWhile_append_of_pos passes,
    List.dropWhile_append_of_pos passes]
  simp [quote]

theorem quoted?_append {opening closing : Char} (opens : isQuote opening = true)
    (closes : isQuote closing = true) (unquoted : Unquoted content) (notEmpty : content ≠ []) :
    quoted? (opening :: (content ++ closing :: rest)) = some (content, rest) := by
  rw [quoted?, if_pos opens, span_unquoted unquoted closes]
  simp [notEmpty]

theorem isBlank_of_isQuote (quote : isQuote char = true) : Text.isBlank char = false := by
  rw [isQuote, Bool.or_eq_true, Bool.or_eq_true, beq_iff_eq, beq_iff_eq, beq_iff_eq] at quote
  rcases quote with (rfl | rfl) | rfl <;> rfl

theorem not_mem_of_unquoted (unquoted : Unquoted front) (quote : isQuote char = true) :
    char ∉ front := fun member => by
  simp [unquoted char member] at quote

theorem unquoted_of_blank (blank : Blank front) : Unquoted front := by
  intro char member
  rw [← Bool.not_eq_true]
  intro quote
  exact absurd (blank char member) (by simp [isBlank_of_isQuote quote])

theorem exists_of_quoted? {chars : List Char} {result : List Char × List Char}
    (recognised : quoted? chars = some result) :
    ∃ mark more, chars = mark :: more ∧ isQuote mark = true := by
  cases chars with
  | nil => cases recognised
  | cons mark more =>
      rw [quoted?] at recognised
      split at recognised
      · exact ⟨mark, more, rfl, ‹_›⟩
      · cases recognised

theorem append_quote_inj {other more : List Char} {mark : Char} (unquoted : Unquoted front)
    (otherUnquoted : Unquoted other) (quote : isQuote char = true) (markQuote : isQuote mark = true)
    (same : front ++ char :: rest = other ++ mark :: more) :
    front = other ∧ char :: rest = mark :: more := by
  have spans : (front ++ char :: rest).span (!isQuote ·) = (front, char :: rest) :=
    span_unquoted unquoted quote
  rw [same, span_unquoted otherUnquoted markQuote] at spans
  exact ⟨(Prod.mk.inj spans).1.symm, (Prod.mk.inj spans).2.symm⟩

/-! ## Searching -/

theorem exists_of_append_eq {stop : Char} {spelled tail : List Char} (absent : stop ∉ spelled)
    (same : front ++ stop :: rest = spelled ++ tail) :
    ∃ between, front = spelled ++ between ∧ tail = between ++ stop :: rest := by
  rcases List.append_eq_append_iff.mp same with
    ⟨more, spelled_eq, tail_eq⟩ | ⟨more, front_eq, tail_eq⟩
  · cases more with
    | nil =>
        rw [List.append_nil] at spelled_eq
        exact ⟨[], by rw [spelled_eq, List.append_nil], tail_eq.symm⟩
    | cons char more =>
        cases tail_eq
        exact absurd (by rw [spelled_eq]; simp) absent
  · exact ⟨more, front_eq, tail_eq⟩

structure FirstAt (holds : List Char → Prop) (chars before rest : List Char) : Prop where
  whole : chars = before ++ rest
  here : holds rest
  first : ∀ earlier later, chars = earlier ++ later → holds later → before.length ≤ earlier.length

variable {holds : List Char → Prop}

theorem FirstAt.unique {otherBefore otherRest : List Char} (one : FirstAt holds chars before rest)
    (other : FirstAt holds chars otherBefore otherRest) :
    before = otherBefore ∧ rest = otherRest := by
  have equal : before.length = otherBefore.length :=
    Nat.le_antisymm (one.first _ _ other.whole other.here) (other.first _ _ one.whole one.here)
  exact List.append_inj (one.whole.symm.trans other.whole) equal

theorem firstAt_of_drop (whole : chars = before ++ rest) (here : holds rest)
    (notBefore : ∀ index < before.length, ¬holds (chars.drop index)) :
    FirstAt holds chars before rest := by
  refine ⟨whole, here, fun earlier later moved holdsLater => Nat.not_lt.mp fun isBefore => ?_⟩
  have notLater := notBefore earlier.length isBefore
  rw [moved, List.drop_left] at notLater
  exact notLater holdsLater

theorem firstAt_nil (here : holds chars) : FirstAt holds chars [] chars :=
  ⟨rfl, here, fun _ _ _ _ => Nat.zero_le _⟩

theorem firstAt_cons_iff (notHere : ¬holds (char :: chars)) :
    FirstAt holds (char :: chars) before rest ↔
      ∃ more, before = char :: more ∧ FirstAt holds chars more rest := by
  constructor
  · rintro ⟨whole, here, first⟩
    cases before with
    | nil => exact absurd (whole ▸ here) notHere
    | cons next more =>
        cases whole
        refine ⟨more, rfl, rfl, here, fun earlier later whole holdsLater => ?_⟩
        have bound := first (char :: earlier) later (by rw [whole]; rfl) holdsLater
        exact Nat.le_of_succ_le_succ bound
  · rintro ⟨more, rfl, whole, here, first⟩
    refine ⟨by rw [whole]; rfl, here, fun earlier later whole holdsLater => ?_⟩
    cases earlier with
    | nil => exact absurd (whole ▸ holdsLater) notHere
    | cons next others =>
        cases whole
        exact Nat.succ_le_succ (first others later rfl holdsLater)

variable {α : Type} {recognise : List Char → Option α} {found : α}

theorem search_eq_some_iff : search recognise chars = some found ↔
    ∃ before rest, FirstAt (fun later => (recognise later).isSome) chars before rest ∧
      recognise rest = some found := by
  induction chars with
  | nil =>
      rw [search]
      constructor
      · exact fun taken => ⟨[], [], firstAt_nil (by simp [taken]), taken⟩
      · rintro ⟨before, rest, first, taken⟩
        rwa [(List.append_eq_nil_iff.mp first.whole.symm).2] at taken
  | cons char chars induction =>
      cases here : recognise (char :: chars) with
      | some taken =>
          have first : FirstAt (fun later => (recognise later).isSome) (char :: chars) []
              (char :: chars) := firstAt_nil (by simp [here])
          rw [search, here]
          constructor
          · rintro ⟨⟩
            exact ⟨[], _, first, here⟩
          · rintro ⟨before, rest, other, taken⟩
            rwa [(other.unique first).2, here] at taken
      | none =>
          rw [search, here]
          refine induction.trans ?_
          have notHere : ¬(recognise (char :: chars)).isSome := by simp [here]
          constructor
          · rintro ⟨before, rest, first, taken⟩
            exact ⟨char :: before, rest, (firstAt_cons_iff notHere).mpr ⟨before, rfl, first⟩, taken⟩
          · rintro ⟨before, rest, first, taken⟩
            have ⟨more, _, first⟩ := (firstAt_cons_iff notHere).mp first
            exact ⟨more, rest, first, taken⟩

theorem search_eq_none_iff : search recognise chars = none ↔
    ∀ rest, rest <:+ chars → recognise rest = none := by
  induction chars with
  | nil => simp [search]
  | cons char chars induction =>
      rw [search]
      cases here : recognise (char :: chars) with
      | some taken =>
          refine iff_of_false (by simp) fun absent => ?_
          simp [absent _ (List.suffix_refl _)] at here
      | none =>
          rw [induction]
          simp only [List.suffix_cons_iff, forall_eq_or_imp, here, true_and]

/-- Where a recogniser cannot look past a character, a search is done before and after it. -/
theorem search_append {stop : Char} (nothing : recognise [] = none)
    (stops : ∀ front, recognise (front ++ stop :: rest) = recognise front) :
    search recognise (front ++ stop :: rest) =
      (search recognise front).or (search recognise rest) := by
  induction front with
  | nil =>
      have stopped : recognise (stop :: rest) = none := (stops []).trans nothing
      have empty : search recognise [] = none := nothing
      rw [empty, Option.none_or, List.nil_append, search, stopped]
  | cons char front induction =>
      have stopped := stops (char :: front)
      rw [List.cons_append] at stopped ⊢
      rw [search, search, stopped]
      cases recognise (char :: front) with
      | some taken => rfl
      | none => exact induction

end WorkspaceGraph.Source
