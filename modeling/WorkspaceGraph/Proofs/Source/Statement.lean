import WorkspaceGraph.Proofs.Order
import WorkspaceGraph.Proofs.Source.Capture
/-!
Import statements. A section of a source text is a list of statements, each up to the end of a line.
What is extracted from a section is what its statements import and nothing else, whatever their
clauses say and whatever stands before their calls.
-/

namespace WorkspaceGraph.Source.Import

/-! ## Statements -/

structure Gap where
  chars : List Char
  blank : Blank chars
  notEmpty : chars ≠ []

structure Padding where
  chars : List Char
  blank : Blank chars

/-- What is named before `from`. Keywords and line feeds may be in it. -/
structure Clause where
  chars : List Char
  unquoted : Unquoted chars
  notEmpty : chars ≠ []

structure Naming where
  before : Gap
  clause : Clause
  between : Gap
  after : Gap

/-- What stands before a call. Keywords and line feeds may be in it. -/
structure Lead where
  chars : List Char
  unquoted : Unquoted chars
  spaced : chars = [] ∨ chars.getLast? = some ' '

inductive Form
  /-- `import "x"` -/
  | bare (gap : Gap)
  /-- `import … from "x"` -/
  | named (naming : Naming)
  /-- `export … from "x"` -/
  | reexported (naming : Naming)
  /-- `… import("x")` -/
  | call (lead : Lead) (opening closing : Padding)

structure IsSolid (char : Char) : Prop where
  notBlank : Text.isBlank char = false
  notQuote : isQuote char = false
  notOpening : char ≠ '('
  notClosing : char ≠ ')'

instance (char : Char) : Decidable (IsSolid char) :=
  decidable_of_iff (Text.isBlank char = false ∧ isQuote char = false ∧ char ≠ '(' ∧ char ≠ ')')
    ⟨fun ⟨notBlank, notQuote, notOpening, notClosing⟩ =>
        ⟨notBlank, notQuote, notOpening, notClosing⟩,
      fun solid => ⟨solid.notBlank, solid.notQuote, solid.notOpening, solid.notClosing⟩⟩

def Solid (chars : List Char) : Prop := ∀ char ∈ chars, IsSolid char

instance (chars : List Char) : Decidable (Solid chars) := List.decidableBAll IsSolid chars

/-- A statement that imports. Its two quotes need not be alike. -/
structure Statement where
  form : Form
  opening : Char
  specifier : String
  closing : Char
  ended : Bool
  opens : isQuote opening = true
  notEmpty : specifier.toList ≠ []
  solid : Solid specifier.toList
  closes : isQuote closing = true

def Naming.chars (naming : Naming) : List Char :=
  naming.before.chars ++ naming.clause.chars ++ naming.between.chars ++ "from".toList ++
    naming.after.chars

def Form.lead : Form → List Char
  | bare _ | named _ | reexported _ => []
  | call lead _ _ => lead.chars

def Form.keyword : Form → String
  | bare _ | named _ | call _ _ _ => "import"
  | reexported _ => "export"

def Form.between : Form → List Char
  | bare gap => gap.chars
  | named naming => naming.chars
  | reexported naming => naming.chars
  | call _ opening _ => '(' :: opening.chars

def Form.head (form : Form) : List Char :=
  form.lead ++ (form.keyword.toList ++ form.between)

def Form.close : Form → List Char
  | call _ _ closing => closing.chars ++ [')']
  | _ => []

namespace Statement

def tail (statement : Statement) : List Char :=
  statement.form.close ++ ((if statement.ended then [';'] else []) ++ ['\n'])

def body (statement : Statement) : List Char :=
  statement.opening :: (statement.specifier.toList ++ statement.closing :: statement.tail)

def chars (statement : Statement) : List Char := statement.form.head ++ statement.body

def text (statements : List Statement) : String := String.ofList (statements.flatMap chars)

end Statement

/-! ## Before the quotes -/

theorem Gap.unquoted (gap : Gap) : Unquoted gap.chars := unquoted_of_blank gap.blank

theorem Naming.unquoted (naming : Naming) : Unquoted naming.chars := by
  have word : Unquoted "from".toList := by decide
  simp only [Unquoted, chars, List.forall_mem_append]
  exact ⟨⟨⟨⟨naming.before.unquoted, naming.clause.unquoted⟩, naming.between.unquoted⟩, word⟩,
    naming.after.unquoted⟩

theorem Form.unquoted_keyword (form : Form) : Unquoted form.keyword.toList := by
  have word : Unquoted "import".toList := by decide
  have exportWord : Unquoted "export".toList := by decide
  cases form <;> assumption

theorem Form.unquoted_between (form : Form) : Unquoted form.between := by
  cases form with
  | bare gap => exact gap.unquoted
  | named naming => exact naming.unquoted
  | reexported naming => exact naming.unquoted
  | call lead opening closing =>
      exact List.forall_mem_cons.mpr ⟨rfl, unquoted_of_blank opening.blank⟩

theorem Form.unquoted_later (form : Form) : Unquoted (form.keyword.toList ++ form.between) :=
  List.forall_mem_append.mpr ⟨form.unquoted_keyword, form.unquoted_between⟩

theorem Form.unquoted_head (form : Form) : Unquoted form.head := by
  refine List.forall_mem_append.mpr ⟨?_, form.unquoted_later⟩
  cases form with
  | call lead opening closing => exact lead.unquoted
  | _ => exact nofun

theorem Form.endsInWord_lead (form : Form) : endsInWord false form.lead = false := by
  cases form with
  | call lead opening closing =>
      rcases lead.spaced with empty | last
      · rw [Form.lead, empty]
        rfl
      · rcases List.getLast?_eq_some_iff.mp last with ⟨front, shape⟩
        rw [Form.lead, shape, endsInWord_concat]
        decide
  | _ => rfl

theorem isGap_iff {chars : List Char} : isGap chars = true ↔ chars ≠ [] ∧ Blank chars := by
  simp [isGap, Blank]

theorem exists_blank_of_endsInFrom {least : Nat} {chars : List Char}
    (ends : endsInFrom least chars = true) : ∃ char ∈ chars, Text.isBlank char = true := by
  simp only [endsInFrom, Bool.and_eq_true, Option.any_eq_true] at ends
  rcases ends with ⟨-, ⟨-, first, head, blank⟩, -⟩
  have inside := List.mem_of_mem_take (List.mem_of_head? head)
  exact ⟨first, Text.mem_of_mem_dropEndWhile inside, blank⟩

theorem endsInFrom_append {least : Nat} {before after : List Char}
    (long : least + 2 ≤ before.length) (first : before.head?.any Text.isBlank = true)
    (last : before.getLast?.any Text.isBlank = true) (blank : Blank after) (notEmpty : after ≠ []) :
    endsInFrom least (before ++ "from".toList ++ after) = true := by
  have trimmed : Text.dropEndWhile Text.isBlank (before ++ "from".toList ++ after) =
      before ++ "from".toList := by
    have word : "from".toList = "fro".toList ++ ['m'] := rfl
    rw [Text.dropEndWhile_append blank, word, ← List.append_assoc]
    exact Text.dropEndWhile_concat _ rfl
  have taken : (before ++ "from".toList).take ((before ++ "from".toList).length - 4) = before := by
    simp
  have shorter : 0 < after.length := List.length_pos_iff.mpr notEmpty
  simp only [endsInFrom, trimmed, taken, first, last]
  simp [shorter, long]

theorem Naming.endsInFrom (naming : Naming) {least : Nat} (few : least ≤ 1) :
    endsInFrom least naming.chars = true := by
  rcases naming with ⟨⟨before, beforeBlank, beforeSome⟩, ⟨clause, -, clauseSome⟩,
    ⟨between, betweenBlank, betweenSome⟩, ⟨after, afterBlank, afterSome⟩⟩
  have lengths := List.length_pos_iff.mpr beforeSome
  have clauseLength := List.length_pos_iff.mpr clauseSome
  have betweenLength := List.length_pos_iff.mpr betweenSome
  apply endsInFrom_append _ _ _ afterBlank afterSome
  · simp only [List.length_append]
    omega
  · cases before with
    | nil => exact absurd rfl beforeSome
    | cons first more => exact beforeBlank first (List.mem_cons_self ..)
  · rw [List.getLast?_append_of_ne_nil _ betweenSome, List.getLast?_eq_some_getLast betweenSome]
    exact betweenBlank _ (List.getLast_mem betweenSome)

/-! ## From the first quote on -/

namespace Statement

variable (statement : Statement)

theorem quoted?_body (rest : List Char) : quoted? (statement.body ++ rest) =
    some (statement.specifier.toList, statement.tail ++ rest) := by
  have unquoted : Unquoted statement.specifier.toList := fun char member =>
    (statement.solid char member).notQuote
  rw [body, List.cons_append, List.append_assoc, List.cons_append]
  exact quoted?_append statement.opens statement.closes unquoted statement.notEmpty

theorem not_mem_tail : 'i' ∉ statement.tail ∧ 'e' ∉ statement.tail := by
  have close : ∀ char ∈ statement.form.close, Text.isBlank char = true ∨ char = ')' := by
    cases statement.form with
    | call lead opening closing =>
        exact List.forall_mem_append.mpr ⟨fun char member => .inl (closing.blank char member),
          List.forall_mem_singleton.mpr (.inr rfl)⟩
    | _ => exact nofun
  have absent : ∀ char, Text.isBlank char = false → char ≠ ')' → char ≠ ';' →
      char ∉ statement.tail := by
    intro char notBlank notClosing notEnd member
    rcases List.mem_append.mp member with member | member
    · rcases close char member with blank | same
      · rw [notBlank] at blank
        cases blank
      · exact notClosing same
    · rcases List.mem_append.mp member with member | member
      · split at member
        · exact notEnd (List.mem_singleton.mp member)
        · cases member
      · rw [List.mem_singleton.mp member] at notBlank
        cases notBlank
  exact ⟨absent _ rfl (by decide) (by decide), absent _ rfl (by decide) (by decide)⟩

theorem endsInWord_chars (inWord : Bool) : endsInWord inWord statement.chars = false := by
  have whole : statement.chars = statement.form.head ++ (statement.opening ::
      (statement.specifier.toList ++ statement.closing :: (statement.form.close ++
        (if statement.ended then [';'] else [])))) ++ ['\n'] := by
    simp [chars, body, tail]
  rw [whole, endsInWord_concat]
  decide

end Statement

/-! ## Where the recognisers look -/

variable {recognise : List Char → Option (List Char × List Char)}

/-- The recogniser begins with a keyword, and does not leave a specifier that it begins inside. -/
structure Confined (recognise : List Char → Option (List Char × List Char)) : Prop where
  keyword : ∀ char rest, char ≠ 'i' → char ≠ 'e' → recognise (char :: rest) = none
  solid : ∀ word mark rest, Solid word → isQuote mark = true →
    recognise (word ++ mark :: rest) = none

theorem Confined.silent (confined : Confined recognise) (statement : Statement)
    (rest : List Char) : Silent recognise statement.body rest := by
  have atQuote : ∀ mark more, isQuote mark = true → recognise (mark :: more) = none :=
    fun mark more => confined.solid [] mark more nofun
  intro later some within
  rcases List.suffix_cons_iff.mp within with rfl | ⟨before, whole⟩
  · exact atQuote _ _ statement.opens
  rcases List.append_eq_append_iff.mp whole with ⟨word, specifier, rfl⟩ | ⟨more, -, afterwards⟩
  · rw [List.append_assoc, List.cons_append]
    refine confined.solid word _ _ (fun char member => statement.solid char ?_) statement.closes
    rw [specifier]
    exact List.mem_append_right _ member
  · rcases List.suffix_cons_iff.mp ⟨more, afterwards.symm⟩ with rfl | inTail
    · exact atQuote _ _ statement.closes
    · cases later with
      | nil => exact absurd rfl some
      | cons char more =>
          have member : char ∈ statement.tail := inTail.subset (List.mem_cons_self ..)
          refine confined.keyword char _ ?_ ?_
          · exact fun same => statement.not_mem_tail.1 (same ▸ member)
          · exact fun same => statement.not_mem_tail.2 (same ▸ member)

theorem afterWord?_of_ne {word : String} {first char : Char} {more rest : List Char}
    (spelled : word.toList = first :: more) (different : char ≠ first) :
    afterWord? word (char :: rest) = none := by
  rw [Option.eq_none_iff_forall_ne_some]
  intro after taken
  have whole := afterWord?_eq_some_iff.mp taken
  rw [spelled] at whole
  exact different (List.cons.inj whole).1

theorem unquoted_of_solid {word : List Char} (solid : Solid word) :
    Unquoted word := fun char member => (solid char member).notQuote

theorem not_blank_of_solid {front between : List Char} (solid : Solid (front ++ between)) :
    ¬∃ char ∈ between, Text.isBlank char = true := by
  rintro ⟨char, member, blank⟩
  have notBlank := (solid char (List.mem_append_right _ member)).notBlank
  rw [blank] at notBlank
  cases notBlank

theorem plain_confined : Confined plain := by
  constructor
  · intro char rest notFirst _
    rw [plain, afterWord?_of_ne rfl notFirst]
    rfl
  · intro word mark rest solid quote
    rw [Option.eq_none_iff_forall_ne_some]
    intro result recognised
    have ⟨between, whole, allowed, _⟩ := (plain_iff (unquoted_of_solid solid) quote).mp recognised
    refine not_blank_of_solid (whole ▸ solid) ?_
    rcases Bool.or_eq_true_iff.mp allowed with gap | ends
    · have ⟨notEmpty, blank⟩ := isGap_iff.mp gap
      exact ⟨_, List.head_mem notEmpty, blank _ (List.head_mem notEmpty)⟩
    · exact exists_blank_of_endsInFrom ends

theorem reexport_confined : Confined reexport := by
  constructor
  · intro char rest _ notFirst
    rw [reexport, afterWord?_of_ne rfl notFirst]
    rfl
  · intro word mark rest solid quote
    rw [Option.eq_none_iff_forall_ne_some]
    intro result recognised
    have ⟨between, whole, ends, _⟩ := (reexport_iff (unquoted_of_solid solid) quote).mp recognised
    exact not_blank_of_solid (whole ▸ solid) (exists_blank_of_endsInFrom ends)

theorem dynamic_confined : Confined dynamic := by
  constructor
  · intro char rest notFirst _
    rw [dynamic, afterWord?_of_ne rfl notFirst]
    rfl
  · intro word mark rest solid quote
    rw [Option.eq_none_iff_forall_ne_some]
    rintro ⟨found, after⟩ recognised
    have ⟨gap, inner, _, _, _, whole, _⟩ :=
      (dynamic_iff (unquoted_of_solid solid) quote).mp recognised
    exact (solid '(' (by simp [whole])).notOpening rfl

/-! ## One statement -/

structure Faithful (recognise : List Char → Option (List Char × List Char)) : Prop where
  once : ∀ (statement : Statement) rest,
    Once recognise statement.specifier.toList statement.form.head statement.body rest
  silent : ∀ (statement : Statement) rest, Silent recognise statement.body rest

theorem once_of_quoted (statement : Statement) (rest : List Char)
    (reads : ∀ front result, Unquoted front →
      recognise (front ++ (statement.body ++ rest)) = some result →
      quoted? (statement.body ++ rest) = some result) :
    Once recognise statement.specifier.toList statement.form.head statement.body rest := by
  intro later _ within result recognised
  have unquoted : Unquoted later := fun char member =>
    statement.form.unquoted_head char (within.subset member)
  have quoted := reads later result unquoted recognised
  rw [statement.quoted?_body] at quoted
  refine ⟨statement.opening :: (statement.specifier.toList ++ [statement.closing]),
    statement.tail, ?_, (Option.some.inj quoted).symm⟩
  simp [Statement.body]

theorem plain_faithful : Faithful plain where
  silent := plain_confined.silent
  once statement rest := once_of_quoted statement rest fun front result unquoted recognised => by
    have ⟨_, _, _, quoted⟩ := (plain_iff unquoted statement.opens).mp recognised
    exact quoted

theorem reexport_faithful : Faithful reexport where
  silent := reexport_confined.silent
  once statement rest := once_of_quoted statement rest fun front result unquoted recognised => by
    have ⟨_, _, _, quoted⟩ := (reexport_iff unquoted statement.opens).mp recognised
    exact quoted

theorem getLast?_dropBlanks {last : Char} {gap : List Char} (front : List Char)
    (notBlank : Text.isBlank last = false) (blank : Blank gap) :
    (Text.dropEndWhile Text.isBlank (front ++ last :: gap)).getLast? = some last := by
  have moved : front ++ last :: gap = (front ++ [last]) ++ gap := by simp
  rw [moved, Text.dropEndWhile_append blank, Text.dropEndWhile_concat _ notBlank]
  exact List.getLast?_concat

theorem Naming.exists_last (naming : Naming) :
    ∃ front, naming.chars = front ++ 'm' :: naming.after.chars := by
  have word : "from".toList = "fro".toList ++ ['m'] := rfl
  exact ⟨_, by rw [chars, word, ← List.append_assoc, List.append_assoc, List.singleton_append]⟩

theorem Form.exists_of_opening {form : Form} {front gap : List Char}
    (head_eq : form.head = front ++ '(' :: gap) (blank : Blank gap) :
    ∃ lead opening closing, form = call lead opening closing := by
  have notCalled : ∀ before letter after, Blank after → Text.isBlank letter = false →
      letter ≠ '(' → form.head ≠ before ++ letter :: after := by
    intro before letter after afterBlank notBlank different whole
    have last : _ = some '(' := getLast?_dropBlanks front rfl blank
    rw [← head_eq, whole, getLast?_dropBlanks before notBlank afterBlank] at last
    exact different (Option.some.inj last)
  have word : "import".toList = "impor".toList ++ ['t'] := by decide
  cases form with
  | bare gap =>
      refine absurd ?_ (notCalled "impor".toList 't' gap.chars gap.blank rfl (by decide))
      rw [head, lead, keyword, between, word, List.append_assoc]
      rfl
  | named naming =>
      have ⟨front, chars_eq⟩ := naming.exists_last
      refine absurd ?_ (notCalled ("import".toList ++ front) 'm' _ naming.after.blank rfl
        (by decide))
      rw [head, lead, keyword, between, chars_eq, List.append_assoc, List.nil_append]
  | reexported naming =>
      have ⟨front, chars_eq⟩ := naming.exists_last
      refine absurd ?_ (notCalled ("export".toList ++ front) 'm' _ naming.after.blank rfl
        (by decide))
      rw [head, lead, keyword, between, chars_eq, List.append_assoc, List.nil_append]
  | call lead opening closing => exact ⟨lead, opening, closing, rfl⟩

theorem dynamic_faithful : Faithful dynamic where
  silent := dynamic_confined.silent
  once := by
    rintro statement rest later - ⟨before, whole⟩ ⟨found, after⟩ recognised
    have unquoted : Unquoted later := fun char member =>
      statement.form.unquoted_head char (whole ▸ List.mem_append_right _ member)
    have ⟨gap, inner, middle, _, blank, later_eq, quoted, closed⟩ :=
      (dynamic_iff unquoted statement.opens).mp recognised
    cases quoted.symm.trans (statement.quoted?_body rest)
    have head_eq : statement.form.head = (before ++ "import".toList ++ gap) ++ '(' :: inner := by
      simp [← whole, later_eq]
    have ⟨lead, opening, closing, form_eq⟩ := Form.exists_of_opening head_eq blank
    have tail_eq : statement.tail = closing.chars ++ ')' ::
        ((if statement.ended then [';'] else []) ++ ['\n']) := by
      simp [Statement.tail, form_eq, Form.close]
    rw [tail_eq, List.append_assoc, List.cons_append, skipBlanks_gap closing.blank rfl,
      afterChar?_eq_some_iff] at closed
    refine ⟨statement.opening :: (statement.specifier.toList ++
      statement.closing :: (closing.chars ++ [')'])), (if statement.ended then [';'] else []) ++
      ['\n'], ?_, ?_⟩
    · simp [Statement.body, tail_eq]
    · rw [(List.cons.inj closed).2]

theorem Statement.opens_of_recognised {statement : Statement}
    (recognised : ∀ rest, ∃ result, recognise (statement.form.keyword.toList ++
      statement.form.between ++ (statement.body ++ rest)) = some result) (rest : List Char) :
    Opens recognise false statement.form.head (statement.body ++ rest) := by
  refine ⟨statement.form.lead, _, ?_, rfl, statement.form.endsInWord_lead,
    Option.isSome_iff_exists.mpr (recognised rest)⟩
  have word : "import".toList ≠ [] := by decide
  have exportWord : "export".toList ≠ [] := by decide
  have notEmpty : statement.form.keyword.toList ≠ [] := by
    cases statement.form <;> assumption
  exact List.append_ne_nil_of_left_ne_nil notEmpty _

/-- At the keyword of a statement one of the recognisers finds something. -/
theorem Statement.opens_head (statement : Statement) :
    (∀ rest, Opens plain false statement.form.head (statement.body ++ rest)) ∨
    (∀ rest, Opens reexport false statement.form.head (statement.body ++ rest)) ∨
    ∀ rest, Opens dynamic false statement.form.head (statement.body ++ rest) := by
  have quoted := statement.quoted?_body
  have unquoted := statement.form.unquoted_later
  cases form_eq : statement.form with
  | bare gap =>
      have isGap : isGap gap.chars = true := isGap_iff.mpr ⟨gap.notEmpty, gap.blank⟩
      rw [← form_eq]
      refine .inl (opens_of_recognised fun rest => ?_)
      refine ⟨_, (plain_iff unquoted statement.opens).mpr
        ⟨statement.form.between, ?_, ?_, quoted rest⟩⟩
      · rw [form_eq, Form.keyword]
      · rw [form_eq, Form.between, isGap, Bool.true_or]
  | named naming =>
      have ends : endsInFrom 1 naming.chars = true := naming.endsInFrom Nat.le.refl
      rw [← form_eq]
      refine .inl (opens_of_recognised fun rest => ?_)
      refine ⟨_, (plain_iff unquoted statement.opens).mpr
        ⟨statement.form.between, ?_, ?_, quoted rest⟩⟩
      · rw [form_eq, Form.keyword]
      · rw [form_eq, Form.between, ends, Bool.or_true]
  | reexported naming =>
      have ends : endsInFrom 0 naming.chars = true := naming.endsInFrom (Nat.zero_le 1)
      rw [← form_eq]
      refine .inr (.inl (opens_of_recognised fun rest => ?_))
      refine ⟨_, (reexport_iff unquoted statement.opens).mpr
        ⟨statement.form.between, ?_, ?_, quoted rest⟩⟩
      · rw [form_eq, Form.keyword]
      · rw [form_eq, Form.between, ends]
  | call lead opening closing =>
      have closed : ∀ rest, ∃ after,
          afterChar? ')' (Text.skipBlanks (statement.tail ++ rest)) = some after := by
        intro rest
        rw [Statement.tail, form_eq, Form.close, List.append_assoc, List.append_assoc,
          List.singleton_append, skipBlanks_gap closing.blank rfl]
        exact ⟨_, afterChar?_eq_some_iff.mpr rfl⟩
      rw [← form_eq]
      refine .inr (.inr (opens_of_recognised fun rest => ?_))
      have ⟨after, closed⟩ := closed rest
      refine ⟨_, (dynamic_iff unquoted statement.opens).mpr
        ⟨[], opening.chars, _, nofun, opening.blank, ?_, quoted rest, closed⟩⟩
      rw [form_eq, Form.keyword, Form.between, List.nil_append]

/-! ## Sections -/

theorem captures_statement (faithful : Faithful recognise) (statement : Statement)
    (rest : List Char) :
    ∃ captured, (∀ other ∈ captured, other = statement.specifier.toList) ∧
      (Opens recognise false statement.form.head (statement.body ++ rest) →
        statement.specifier.toList ∈ captured) ∧
      captures recognise 0 false (statement.chars ++ rest) =
        captured ++ captures recognise 0 false rest := by
  have ⟨captured, only, opened, whole⟩ :=
    captures_once false (faithful.once statement rest) (faithful.silent statement rest)
  have outside := statement.endsInWord_chars false
  rw [Statement.chars] at outside
  rw [outside, ← List.append_assoc] at whole
  exact ⟨captured, only, opened, whole⟩

/-- From a section only specifiers of its statements are captured, and all of those whose statements
open with what the recogniser looks for. -/
theorem captures_section (faithful : Faithful recognise) (statements : List Statement) :
    (∀ found ∈ captures recognise 0 false (statements.flatMap Statement.chars),
      ∃ statement ∈ statements, found = statement.specifier.toList) ∧
    ∀ statement ∈ statements,
      (∀ rest, Opens recognise false statement.form.head (statement.body ++ rest)) →
      statement.specifier.toList ∈
        captures recognise 0 false (statements.flatMap Statement.chars) := by
  induction statements with
  | nil => exact ⟨nofun, nofun⟩
  | cons first rest induction =>
      have ⟨captured, only, opened, whole⟩ :=
        captures_statement faithful first (rest.flatMap Statement.chars)
      rw [List.flatMap_cons, whole]
      constructor
      · intro found member
        rcases List.mem_append.mp member with member | member
        · exact ⟨first, List.mem_cons_self .., only found member⟩
        · have ⟨statement, inside, same⟩ := induction.1 found member
          exact ⟨statement, List.mem_cons_of_mem _ inside, same⟩
      · intro statement member opens
        rcases List.mem_cons.mp member with rfl | member
        · exact List.mem_append_left _ (opened (opens _))
        · exact List.mem_append_right _ (induction.2 statement member opens)

theorem mem_specifiersOf {chars : List Char} {specifier : String} :
    specifier ∈ specifiersOf recognise chars ↔
      specifier.toList ∈ captures recognise 0 false chars := by
  rw [specifiersOf, List.mem_map]
  constructor
  · rintro ⟨found, member, rfl⟩
    rwa [String.toList_ofList]
  · exact fun member => ⟨_, member, String.ofList_toList⟩

/-- What is extracted from a section is the increasing list of what its statements import. -/
theorem specifiers_section (statements : List Statement) :
    (specifiers (Statement.text statements)).Pairwise (· < ·) ∧
    ∀ specifier, specifier ∈ specifiers (Statement.text statements) ↔
      ∃ statement ∈ statements, statement.specifier = specifier := by
  refine ⟨Order.distinct_increasing _, fun specifier => ?_⟩
  have ⟨plainOnly, plainAll⟩ := captures_section plain_faithful statements
  have ⟨reexportOnly, reexportAll⟩ := captures_section reexport_faithful statements
  have ⟨dynamicOnly, dynamicAll⟩ := captures_section dynamic_faithful statements
  have imported : (∃ statement ∈ statements, specifier.toList = statement.specifier.toList) →
      ∃ statement ∈ statements, statement.specifier = specifier := by
    rintro ⟨statement, member, same⟩
    exact ⟨statement, member, (String.toList_injective same).symm⟩
  rw [specifiers, Order.mem_distinct, List.mem_append, List.mem_append, mem_specifiersOf,
    mem_specifiersOf, mem_specifiersOf, Statement.text, String.toList_ofList]
  constructor
  · rintro ((member | member) | member)
    · exact imported (plainOnly _ member)
    · exact imported (reexportOnly _ member)
    · exact imported (dynamicOnly _ member)
  · rintro ⟨statement, member, rfl⟩
    rcases statement.opens_head with opens | opens | opens
    · exact .inl (.inl (plainAll statement member opens))
    · exact .inl (.inr (reexportAll statement member opens))
    · exact .inr (dynamicAll statement member opens)

def Gap.space : Gap := ⟨[' '], by decide, by decide⟩

def Statement.misleading : Statement where
  form := .named ⟨.space, ⟨"export a from\nimport".toList, by decide, by decide⟩, .space, .space⟩
  opening := '\''
  specifier := "./import"
  closing := '"'
  ended := true
  opens := rfl
  notEmpty := by decide
  solid := by decide
  closes := rfl

example : Statement.text [.misleading] = "import export a from\nimport from './import\";\n" := rfl

example : specifiers (Statement.text [.misleading, .misleading]) = ["./import"] := by
  decide +kernel

end WorkspaceGraph.Source.Import
