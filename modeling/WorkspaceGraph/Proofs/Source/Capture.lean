import WorkspaceGraph.Source.Import
import WorkspaceGraph.Proofs.Source.Pattern
import WorkspaceGraph.Proofs.Text.Blank
/-!
Captures from left to right. Where a recogniser can only find one text between here and a place
further on, it captures that text or nothing before it gets there. What the recognisers of imports
find is decided by the text before the first quote.
-/

namespace WorkspaceGraph.Source.Import

def endsInWord (inWord : Bool) (chars : List Char) : Bool :=
  chars.foldl (fun _ char => Text.isWord char) inWord

theorem endsInWord_append (inWord : Bool) (front back : List Char) :
    endsInWord inWord (front ++ back) = endsInWord (endsInWord inWord front) back :=
  List.foldl_append

theorem endsInWord_concat (inWord : Bool) (front : List Char) (char : Char) :
    endsInWord inWord (front ++ [char]) = Text.isWord char := by
  rw [endsInWord_append]
  rfl

variable {recognise : List Char → Option (List Char × List Char)} {inWord : Bool} {char : Char}
  {head body front rest found : List Char}

/-! ## Captures -/

def Silent (recognise : List Char → Option (List Char × List Char)) (chars rest : List Char) :
    Prop :=
  ∀ later, later ≠ [] → later <:+ chars → recognise (later ++ rest) = none

/-- At a character of the head nothing is recognised, or else the text, up to some place in the
body. -/
def Once (recognise : List Char → Option (List Char × List Char))
    (found head body rest : List Char) : Prop :=
  ∀ later, later ≠ [] → later <:+ head → ∀ result,
    recognise (later ++ (body ++ rest)) = some result →
      ∃ taken left, body = taken ++ left ∧ result = (found, left ++ rest)

def Opens (recognise : List Char → Option (List Char × List Char)) (inWord : Bool)
    (head rest : List Char) : Prop :=
  ∃ before later, later ≠ [] ∧ head = before ++ later ∧ endsInWord inWord before = false ∧
    (recognise (later ++ rest)).isSome

theorem captures_skipped (front : List Char) :
    captures recognise front.length inWord (front ++ rest) =
      captures recognise 0 (endsInWord inWord front) rest := by
  induction front generalizing inWord with
  | nil => rfl
  | cons char front induction => exact induction

theorem captures_taken (taken : recognise (char :: (front ++ rest)) = some (found, rest)) :
    captures recognise 0 false (char :: (front ++ rest)) =
      found :: captures recognise 0 (endsInWord false (char :: front)) rest := by
  have skipped : (front ++ rest).length - rest.length = front.length := by simp
  rw [captures, if_neg (by simp), taken]
  dsimp only
  rw [skipped, captures_skipped]
  rfl

theorem captures_passed
    (passed : (if inWord then none else recognise (char :: rest)) = none) :
    captures recognise 0 inWord (char :: rest) =
      captures recognise 0 (Text.isWord char) rest := by
  rw [captures, passed]

theorem captures_silent (silent : Silent recognise front rest) :
    captures recognise 0 inWord (front ++ rest) =
      captures recognise 0 (endsInWord inWord front) rest := by
  induction front generalizing inWord with
  | nil => rfl
  | cons char front induction =>
      have here : recognise (char :: (front ++ rest)) = none :=
        silent _ (List.cons_ne_nil _ _) (List.suffix_refl _)
      rw [List.cons_append, captures_passed (by rw [here, ite_self]), induction]
      · rfl
      · exact fun later some within =>
          silent later some (within.trans (List.suffix_cons ..))

theorem captures_once (inWord : Bool) (once : Once recognise found head body rest)
    (silent : Silent recognise body rest) :
    ∃ captured, (∀ other ∈ captured, other = found) ∧
      (Opens recognise inWord head (body ++ rest) → found ∈ captured) ∧
      captures recognise 0 inWord (head ++ (body ++ rest)) =
        captured ++ captures recognise 0 (endsInWord inWord (head ++ body)) rest := by
  induction head generalizing inWord with
  | nil =>
      refine ⟨[], by simp, ?_, captures_silent silent⟩
      rintro ⟨before, later, some, whole, -⟩
      exact absurd (List.append_eq_nil_iff.mp whole.symm).2 some
  | cons char head induction =>
      have further := induction (Text.isWord char) fun later some within =>
        once later some (within.trans (List.suffix_cons ..))
      cases here : if inWord then none else recognise (char :: (head ++ (body ++ rest))) with
      | none =>
          have ⟨captured, only, opened, whole⟩ := further
          refine ⟨captured, only, ?_, (captures_passed here).trans whole⟩
          rintro ⟨before, later, some, shape, outside, recognised⟩
          cases before with
          | nil =>
              cases shape
              cases outside
              rw [if_neg (by simp)] at here
              rw [List.cons_append, here] at recognised
              cases recognised
          | cons first before =>
              cases shape
              exact opened ⟨before, later, some, rfl, outside, recognised⟩
      | some result =>
          cases inWord with
          | true => cases here
          | false =>
              have ⟨taken, left, body_eq, result_eq⟩ :=
                once _ (List.cons_ne_nil _ _) (List.suffix_refl _) result here
              have silentLeft : Silent recognise left rest := fun later some within =>
                silent later some (within.trans ⟨taken, body_eq.symm⟩)
              have shape : char :: (head ++ (body ++ rest)) =
                  char :: ((head ++ taken) ++ (left ++ rest)) := by
                simp [body_eq]
              rw [if_neg (by simp), result_eq, shape] at here
              refine ⟨[found], by simp, fun _ => List.mem_singleton_self _, ?_⟩
              rw [List.cons_append, shape, captures_taken here, captures_silent silentLeft,
                ← endsInWord_append, List.singleton_append, body_eq, List.cons_append,
                List.cons_append, List.append_assoc]

/-! ## Recognisers -/

variable {mark : Char}

theorem keyword_iff (word : String) (allowed : List Char → Bool)
    {result : List Char × List Char} (wordUnquoted : Unquoted word.toList)
    (unquoted : Unquoted front) (quote : isQuote mark = true) :
    ((afterWord? word (front ++ mark :: rest)).bind fun more =>
        if allowed (clause more).1 then quoted? (clause more).2 else none) = some result ↔
      ∃ between, front = word.toList ++ between ∧ allowed between = true ∧
        quoted? (mark :: rest) = some result := by
  have found : ∀ between, front = word.toList ++ between →
      clause (between ++ mark :: rest) = (between, mark :: rest) := fun between whole =>
    span_unquoted (fun char member => unquoted char (by simp [whole, member])) quote
  rw [Option.bind_eq_some_iff]
  constructor
  · rintro ⟨more, taken, recognised⟩
    have absent := not_mem_of_unquoted wordUnquoted quote
    have ⟨between, whole, more_eq⟩ :=
      exists_of_append_eq absent (afterWord?_eq_some_iff.mp taken)
    rw [more_eq, found between whole] at recognised
    split at recognised
    · exact ⟨between, whole, ‹_›, recognised⟩
    · cases recognised
  · rintro ⟨between, whole, isAllowed, recognised⟩
    refine ⟨between ++ mark :: rest, afterWord?_eq_some_iff.mpr (by simp [whole]), ?_⟩
    rwa [found between whole, if_pos isAllowed]

theorem plain_iff {result : List Char × List Char} (unquoted : Unquoted front)
    (quote : isQuote mark = true) :
    plain (front ++ mark :: rest) = some result ↔
      ∃ between, front = "import".toList ++ between ∧
        (isGap between || endsInFrom 1 between) = true ∧
        quoted? (mark :: rest) = some result :=
  keyword_iff "import" (fun between => isGap between || endsInFrom 1 between) (by decide) unquoted
    quote

theorem reexport_iff {result : List Char × List Char} (unquoted : Unquoted front)
    (quote : isQuote mark = true) :
    reexport (front ++ mark :: rest) = some result ↔
      ∃ between, front = "export".toList ++ between ∧ endsInFrom 0 between = true ∧
        quoted? (mark :: rest) = some result :=
  keyword_iff "export" (endsInFrom 0) (by decide) unquoted quote

theorem dynamic_iff {after : List Char} (unquoted : Unquoted front)
    (quote : isQuote mark = true) :
    dynamic (front ++ mark :: rest) = some (found, after) ↔
      ∃ gap inner middle, Blank gap ∧ Blank inner ∧
        front = "import".toList ++ (gap ++ '(' :: inner) ∧
        quoted? (mark :: rest) = some (found, middle) ∧
        afterChar? ')' (Text.skipBlanks middle) = some after := by
  have keyword : Unquoted "import".toList := by decide
  have notBlank := isBlank_of_isQuote quote
  constructor
  · intro recognised
    rcases Option.bind_eq_some_iff.mp recognised with ⟨more, word, recognised⟩
    rcases Option.bind_eq_some_iff.mp recognised with ⟨inside, opened, recognised⟩
    rcases Option.bind_eq_some_iff.mp recognised with ⟨⟨specifier, middle⟩, quoted, recognised⟩
    rcases Option.bind_eq_some_iff.mp recognised with ⟨last, closed, same⟩
    cases same
    have ⟨between, front_eq, more_eq⟩ :=
      exists_of_append_eq (not_mem_of_unquoted keyword quote) (afterWord?_eq_some_iff.mp word)
    have ⟨gap, gapBlank, gap_eq⟩ := exists_gap more
    have ⟨inner, innerBlank, inner_eq⟩ := exists_gap inside
    have ⟨first, others, quoted_eq, firstQuote⟩ := exists_of_quoted? quoted
    rw [afterChar?_eq_some_iff.mp opened, inner_eq, quoted_eq, more_eq, ← List.cons_append,
      ← List.append_assoc] at gap_eq
    have openUnquoted : Unquoted (gap ++ '(' :: inner) :=
      List.forall_mem_append.mpr ⟨unquoted_of_blank gapBlank,
        List.forall_mem_cons.mpr ⟨rfl, unquoted_of_blank innerBlank⟩⟩
    have betweenUnquoted : Unquoted between := fun char member =>
      unquoted char (by simp [front_eq, member])
    have ⟨between_eq, same⟩ :=
      append_quote_inj betweenUnquoted openUnquoted quote firstQuote gap_eq
    rw [quoted_eq, ← same] at quoted
    exact ⟨gap, inner, middle, gapBlank, innerBlank, by rw [front_eq, between_eq], quoted, closed⟩
  · rintro ⟨gap, inner, middle, gapBlank, innerBlank, front_eq, quoted, closed⟩
    have word : afterWord? "import" (front ++ mark :: rest) =
        some (gap ++ '(' :: (inner ++ mark :: rest)) :=
      afterWord?_eq_some_iff.mpr (by simp [front_eq])
    have opened : afterChar? '(' (Text.skipBlanks (gap ++ '(' :: (inner ++ mark :: rest))) =
        some (inner ++ mark :: rest) := by
      rw [skipBlanks_gap gapBlank rfl]
      rfl
    refine Option.bind_eq_some_iff.mpr ⟨_, word, ?_⟩
    refine Option.bind_eq_some_iff.mpr ⟨_, opened, ?_⟩
    rw [skipBlanks_gap innerBlank notBlank]
    refine Option.bind_eq_some_iff.mpr ⟨_, quoted, ?_⟩
    exact Option.bind_eq_some_iff.mpr ⟨_, closed, rfl⟩

end WorkspaceGraph.Source.Import
