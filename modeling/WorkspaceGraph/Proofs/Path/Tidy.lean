import Mathlib.Data.List.Infix
import WorkspaceGraph.Proofs.Path.Within
/-!
The relative form of a path. Bringing a path into this form takes one dot off its front and one
slash off its end. What comes to stand there then is left alone, so paths that are written with more
of them come out with one less, and again with one less the next time.
-/

namespace WorkspaceGraph.Path

variable {chars rest : List Char}

/-- The form of paths in a workspace: with forward slashes, without a dot of its own in front and
without a slash at the end, where a line feed that comes last does not count. -/
structure IsTidy (path : String) : Prop where
  notEmpty : path ≠ ""
  forward : '\\' ∉ path.toList
  begins : ¬['.', '/'] <+: path.toList
  ends : ¬['/'] <:+ path.toList
  endsLine : ¬['/', '\n'] <:+ path.toList

/-! ## The two ends -/

theorem dropDotSlash_cases (chars : List Char) :
    (chars = '.' :: '/' :: dropDotSlash chars) ∨
      ¬['.', '/'] <+: chars ∧ dropDotSlash chars = chars := by
  unfold dropDotSlash
  split
  · exact .inl rfl
  · rename_i other
    refine .inr ⟨?_, rfl⟩
    rintro ⟨rest, shape⟩
    exact other rest shape.symm

theorem dropFinalSlash_concat (front : List Char) : dropFinalSlash (front ++ ['/']) = front := by
  simp [dropFinalSlash, splitFinalNewline]

theorem dropFinalSlash_line (front : List Char) :
    dropFinalSlash (front ++ ['/', '\n']) = front ++ ['\n'] := by
  simp [dropFinalSlash, splitFinalNewline]

theorem dropFinalSlash_cases (chars : List Char) :
    (∃ front, chars = front ++ ['/'] ∧ dropFinalSlash chars = front) ∨
    (∃ front, chars = front ++ ['/', '\n'] ∧ dropFinalSlash chars = front ++ ['\n']) ∨
    ¬['/'] <:+ chars ∧ ¬['/', '\n'] <:+ chars ∧ dropFinalSlash chars = chars := by
  by_cases slash : ['/'] <:+ chars
  · rcases slash with ⟨front, rfl⟩
    exact .inl ⟨front, rfl, dropFinalSlash_concat front⟩
  by_cases line : ['/', '\n'] <:+ chars
  · rcases line with ⟨front, rfl⟩
    exact .inr (.inl ⟨front, rfl, dropFinalSlash_line front⟩)
  · refine .inr (.inr ⟨slash, line, dropFinalSlash_eq (fun ends => ?_) fun front shape => ?_⟩)
    · rcases List.getLast?_eq_some_iff.mp ends with ⟨front, shape⟩
      exact slash ⟨front, shape.symm⟩
    · exact line ⟨front, shape.symm⟩

theorem dropFinalSlash_cons (char : Char) (some : rest ≠ []) (more : rest ≠ ['\n']) :
    dropFinalSlash (char :: rest) = char :: dropFinalSlash rest := by
  rcases dropFinalSlash_cases rest with ⟨front, rfl, cut⟩ | ⟨front, rfl, cut⟩ |
    ⟨ends, endsLine, same⟩
  · rw [cut]
    exact dropFinalSlash_concat (char :: front)
  · rw [cut]
    exact dropFinalSlash_line (char :: front)
  · rw [same]
    rcases dropFinalSlash_cases (char :: rest) with ⟨front, shape, -⟩ | ⟨front, shape, -⟩ |
      ⟨-, -, left⟩
    · rcases List.suffix_cons_iff.mp ⟨front, shape.symm⟩ with single | inner
      · exact absurd (List.cons.inj single).2.symm some
      · exact absurd inner ends
    · rcases List.suffix_cons_iff.mp ⟨front, shape.symm⟩ with single | inner
      · exact absurd (List.cons.inj single).2.symm more
      · exact absurd inner endsLine
    · exact left

theorem length_dropFinalSlash_le (chars : List Char) :
    (dropFinalSlash chars).length ≤ chars.length := by
  rcases dropFinalSlash_cases chars with ⟨front, rfl, cut⟩ | ⟨front, rfl, cut⟩ | ⟨-, -, same⟩
  · simp [cut]
  · simp [cut]
  · rw [same]

/-- A dot of its own stands in front afterwards if it did before, unless its slash is the one that
goes. -/
theorem prefix_dropFinalSlash_iff : ['.', '/'] <+: dropFinalSlash chars ↔
    ∃ rest, chars = '.' :: '/' :: rest ∧ rest ≠ [] ∧ rest ≠ ['\n'] := by
  constructor
  · rcases dropFinalSlash_cases chars with ⟨front, rfl, cut⟩ | ⟨front, rfl, cut⟩ |
      ⟨ends, endsLine, same⟩
    · rw [cut]
      rintro ⟨rest, rfl⟩
      -- The slash that was taken off stands behind the two in front.
      refine ⟨rest ++ ['/'], by simp, by simp, fun shape => ?_⟩
      simpa using congrArg List.getLast? shape
    · rw [cut, List.prefix_concat_iff]
      rintro (whole | ⟨rest, rfl⟩)
      · simpa using congrArg List.getLast? whole
      · refine ⟨rest ++ ['/', '\n'], by simp, by simp, fun shape => ?_⟩
        simpa using congrArg List.length shape
    · rw [same]
      rintro ⟨rest, rfl⟩
      refine ⟨rest, rfl, ?_, ?_⟩
      · rintro rfl
        exact ends ⟨['.'], rfl⟩
      · rintro rfl
        exact endsLine ⟨['.'], rfl⟩
  · rintro ⟨rest, rfl, some, more⟩
    rw [dropFinalSlash_cons '.' (by simp) (by simp), dropFinalSlash_cons '/' some more]
    exact ⟨_, rfl⟩

theorem slash_suffix_dropFinalSlash_iff :
    ['/'] <:+ dropFinalSlash chars ↔ ['/', '/'] <:+ chars := by
  rcases dropFinalSlash_cases chars with ⟨front, rfl, cut⟩ | ⟨front, rfl, cut⟩ | ⟨ends, -, same⟩
  · rw [cut]
    simp [← List.reverse_prefix]
  · rw [cut]
    simp [← List.reverse_prefix]
  · rw [same]
    exact iff_of_false ends fun two => ends ((List.suffix_cons _ _).trans two)

/-- A slash is at the end of the last line afterwards if one was left there or uncovered. -/
theorem line_suffix_dropFinalSlash_iff : ['/', '\n'] <:+ dropFinalSlash chars ↔
    ['/', '/', '\n'] <:+ chars ∨ ['/', '\n', '/'] <:+ chars := by
  rcases dropFinalSlash_cases chars with ⟨front, rfl, cut⟩ | ⟨front, rfl, cut⟩ |
    ⟨ends, endsLine, same⟩
  · rw [cut]
    simp [← List.reverse_prefix]
  · rw [cut]
    simp [← List.reverse_prefix]
  · rw [same]
    refine iff_of_false endsLine ?_
    rintro (two | uncovered)
    · exact endsLine ((List.suffix_cons _ _).trans two)
    · exact ends ((List.suffix_append ['/', '\n'] ['/']).trans uncovered)

theorem suffix_dropDotSlash_iff {tail : List Char} : '/' :: tail <:+ dropDotSlash chars ↔
    '/' :: tail <:+ chars ∧ chars ≠ '.' :: '/' :: tail := by
  rcases dropDotSlash_cases chars with shape | ⟨begins, same⟩
  · generalize dropDotSlash chars = rest at shape
    subst shape
    constructor
    · intro ends
      refine ⟨ends.trans ⟨['.', '/'], rfl⟩, fun whole => ?_⟩
      cases whole
      have longer := ends.length_le
      rw [List.length_cons] at longer
      omega
    · rintro ⟨ends, other⟩
      rcases List.suffix_cons_iff.mp ends with whole | ends
      · cases whole
      rcases List.suffix_cons_iff.mp ends with whole | ends
      · exact absurd (congrArg ('.' :: ·) whole.symm) other
      · exact ends
  · rw [same]
    refine (and_iff_left ?_).symm
    rintro rfl
    exact begins ⟨tail, rfl⟩

theorem dropDotSlash_eq_iff : dropDotSlash chars = '.' :: '/' :: rest ↔
    chars = '.' :: '/' :: '.' :: '/' :: rest := by
  rcases dropDotSlash_cases chars with shape | ⟨begins, same⟩
  · generalize dropDotSlash chars = inner at shape
    subst shape
    simp
  · rw [same]
    refine iff_of_false ?_ ?_
    · rintro rfl
      exact begins ⟨rest, rfl⟩
    · rintro rfl
      exact begins ⟨_, rfl⟩

theorem dropFinalSlash_dropDotSlash_eq_iff : dropFinalSlash (dropDotSlash chars) = chars ↔
    ¬['.', '/'] <+: chars ∧ ¬['/'] <:+ chars ∧ ¬['/', '\n'] <:+ chars := by
  have shorter := length_dropFinalSlash_le (dropDotSlash chars)
  rcases dropDotSlash_cases chars with shape | ⟨begins, same⟩
  · refine iff_of_false (fun whole => ?_) fun parts => parts.1 ⟨_, shape.symm⟩
    have longer := congrArg List.length shape
    rw [whole] at shorter
    simp only [List.length_cons] at longer
    omega
  · rw [same]
    rcases dropFinalSlash_cases chars with ⟨front, rfl, cut⟩ | ⟨front, rfl, cut⟩ |
      ⟨ends, endsLine, cut⟩
    · rw [cut]
      refine iff_of_false (fun whole => ?_) fun parts => parts.2.1 ⟨front, rfl⟩
      simpa using congrArg List.length whole
    · rw [cut]
      refine iff_of_false (fun whole => ?_) fun parts => parts.2.2 ⟨front, rfl⟩
      simpa using congrArg List.length whole
    · exact iff_of_true cut ⟨begins, ends, endsLine⟩

/-! ## The form -/

/-- What is left between the two ends is the form; a dot stands for nothing. -/
theorem toList_relativeForm (path : String) :
    (relativeForm path).toList = dropFinalSlash (dropDotSlash (forwardSlashes path.toList)) ∨
      dropFinalSlash (dropDotSlash (forwardSlashes path.toList)) = [] ∧
        (relativeForm path).toList = ['.'] := by
  rw [relativeForm, String.toList_ofList]
  unfold relativeFormChars
  split
  · rename_i nothing
    exact .inr ⟨nothing, rfl⟩
  · exact .inl rfl

theorem relativeForm_ne_empty (path : String) : relativeForm path ≠ "" := by
  intro empty
  have none := congrArg String.toList empty
  rw [relativeForm, String.toList_ofList] at none
  unfold relativeFormChars at none
  split at none
  · cases none
  · exact absurd none ‹_›

/-- The paths that have the form are those that it leaves as they are. -/
theorem relativeForm_eq_iff {path : String} : relativeForm path = path ↔ IsTidy path := by
  constructor
  · intro same
    have some := relativeForm_ne_empty path
    have forward := not_mem_relativeForm path
    have whole := toList_relativeForm path
    rw [same] at some forward whole
    rw [forwardSlashes_eq forward] at whole
    rcases whole with whole | ⟨-, dot⟩
    · have ⟨begins, ends, endsLine⟩ := dropFinalSlash_dropDotSlash_eq_iff.mp whole.symm
      exact ⟨some, forward, begins, ends, endsLine⟩
    · refine ⟨some, forward, ?_, ?_, ?_⟩
      all_goals
        rw [dot]
        decide
  · intro tidy
    have cut := dropFinalSlash_dropDotSlash_eq_iff.mpr ⟨tidy.begins, tidy.ends, tidy.endsLine⟩
    have whole := toList_relativeForm path
    rw [forwardSlashes_eq tidy.forward, cut] at whole
    rcases whole with whole | ⟨nothing, -⟩
    · exact String.toList_injective whole
    · exact absurd (String.toList_injective nothing) tidy.notEmpty

theorem ends_relativeForm (path : String) :
    (['.', '/'] <+: (relativeForm path).toList ↔
      ['.', '/'] <+: dropFinalSlash (dropDotSlash (forwardSlashes path.toList))) ∧
    (['/'] <:+ (relativeForm path).toList ↔
      ['/'] <:+ dropFinalSlash (dropDotSlash (forwardSlashes path.toList))) ∧
    (['/', '\n'] <:+ (relativeForm path).toList ↔
      ['/', '\n'] <:+ dropFinalSlash (dropDotSlash (forwardSlashes path.toList))) := by
  rcases toList_relativeForm path with whole | ⟨nothing, dot⟩
  · rw [whole]
    exact ⟨Iff.rfl, Iff.rfl, Iff.rfl⟩
  · rw [nothing, dot]
    decide

/-- The form of a path is a text with forward slashes. A dot of its own is still in front of it if
the path has two of them, a slash is still at its end if the path has two there, and the form is
left as it is by being taken once more exactly if neither is so. -/
theorem relativeForm_tidy (path : String) :
    relativeForm path ≠ "" ∧ '\\' ∉ (relativeForm path).toList ∧
    (['.', '/'] <+: (relativeForm path).toList ↔
      ∃ rest, forwardSlashes path.toList = ['.', '/', '.', '/'] ++ rest ∧
        rest ≠ [] ∧ rest ≠ ['\n']) ∧
    (['/'] <:+ (relativeForm path).toList ↔
      ['/', '/'] <:+ forwardSlashes path.toList ∧
        forwardSlashes path.toList ≠ ['.', '/', '/']) ∧
    (['/', '\n'] <:+ (relativeForm path).toList ↔
      (['/', '/', '\n'] <:+ forwardSlashes path.toList ∧
        forwardSlashes path.toList ≠ ['.', '/', '/', '\n']) ∨
      (['/', '\n', '/'] <:+ forwardSlashes path.toList ∧
        forwardSlashes path.toList ≠ ['.', '/', '\n', '/'])) ∧
    (relativeForm (relativeForm path) = relativeForm path ↔
      ¬['.', '/'] <+: (relativeForm path).toList ∧ ¬['/'] <:+ (relativeForm path).toList ∧
        ¬['/', '\n'] <:+ (relativeForm path).toList) := by
  have some := relativeForm_ne_empty path
  have forward := not_mem_relativeForm path
  have ⟨begins, ends, endsLine⟩ := ends_relativeForm path
  refine ⟨some, forward, ?_, ?_, ?_, ?_⟩
  · simp only [begins, prefix_dropFinalSlash_iff, dropDotSlash_eq_iff]
    rfl
  · rw [ends, slash_suffix_dropFinalSlash_iff, suffix_dropDotSlash_iff]
  · rw [endsLine, line_suffix_dropFinalSlash_iff, suffix_dropDotSlash_iff, suffix_dropDotSlash_iff]
  · rw [relativeForm_eq_iff]
    exact ⟨fun tidy => ⟨tidy.begins, tidy.ends, tidy.endsLine⟩,
      fun ⟨begins, ends, endsLine⟩ => ⟨some, forward, begins, ends, endsLine⟩⟩

/-- One dot stays where two were, and one slash where two were; the form of the form is without. -/
theorem relativeForm_untidy :
    relativeForm "././libs/a" = "./libs/a" ∧
    ['.', '/'] <+: (relativeForm "././libs/a").toList ∧
    relativeForm (relativeForm "././libs/a") ≠ relativeForm "././libs/a" ∧
    relativeForm "libs/a//" = "libs/a/" ∧
    ['/'] <:+ (relativeForm "libs/a//").toList ∧
    relativeForm (relativeForm "libs/a//") ≠ relativeForm "libs/a//" ∧
    relativeForm "libs/a//\n" = "libs/a/\n" ∧
    relativeForm (relativeForm "libs/a//\n") ≠ relativeForm "libs/a//\n" := by
  decide

end WorkspaceGraph.Path
