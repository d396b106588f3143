import WorkspaceGraph.Source.Component
import WorkspaceGraph.Proofs.Source.Pattern
/-!
The class of a component. A text has a component if it has a block, and the class it is given is the
one that is exported first after the first mention of a component, wherever the block is. So it is
the class that follows the block unless another one is exported between mention and block.
-/

namespace WorkspaceGraph.Source.Component

variable {chars rest front body block between after : List Char} {name : String}

/-! ## Blocks -/

def Unclosed (body : List Char) : Prop :=
  ∀ front gap back, Blank gap → body ≠ front ++ '\x7d' :: (gap ++ ')' :: back)

/-- The text is a component's block: the marker, a parenthesis and a brace, the body, and what
closes them, with blanks between. -/
structure IsBlock (block body : List Char) : Prop where
  spelled : ∃ first second third, Blank first ∧ Blank second ∧ Blank third ∧
    block = marker.toList ++ (first ++ '(' :: (second ++ '\x7b' ::
      (body ++ '\x7d' :: (third ++ [')']))))
  unclosed : Unclosed body

def BeginsBlock (chars : List Char) : Prop :=
  ∃ block body rest, IsBlock block body ∧ chars = block ++ rest

theorem closes_iff : (Text.skipBlanks chars).head? = some ')' ↔
    ∃ gap rest, Blank gap ∧ chars = gap ++ ')' :: rest := by
  constructor
  · intro closes
    have ⟨gap, blank, shape⟩ := exists_gap chars
    rcases List.head?_eq_some_iff.mp closes with ⟨rest, skipped⟩
    exact ⟨gap, rest, blank, skipped ▸ shape⟩
  · rintro ⟨gap, rest, blank, rfl⟩
    rw [skipBlanks_gap blank (by decide)]
    rfl

theorem exists_of_closes {gap back : List Char} (blank : Blank gap)
    (same : front ++ '\x7d' :: rest = gap ++ ')' :: back) :
    ∃ between, front = gap ++ ')' :: between := by
  have absent : '\x7d' ∉ gap ++ [')'] := by
    have notGap : '\x7d' ∉ gap := fun member => absurd (blank _ member) (by decide)
    simp [notGap]
  have moved : front ++ '\x7d' :: rest = (gap ++ [')']) ++ back := by simpa using same
  have ⟨between, front_eq, _⟩ := exists_of_append_eq absent moved
  exact ⟨between, by simpa using front_eq⟩

def Closes (char : Char) (chars : List Char) : Prop :=
  char = '\x7d' ∧ ∃ gap rest, Blank gap ∧ chars = gap ++ ')' :: rest

theorem unclosed_cons_iff {char : Char} :
    Unclosed (char :: body) ↔ ¬Closes char body ∧ Unclosed body := by
  constructor
  · refine fun unclosed => ⟨?_, fun front gap back blank same => ?_⟩
    · rintro ⟨rfl, gap, back, blank, rfl⟩
      exact unclosed [] gap back blank rfl
    · exact unclosed (char :: front) gap back blank (congrArg (char :: ·) same)
  · rintro ⟨notHere, later⟩ front gap back blank same
    cases front with
    | nil =>
        cases same
        exact notHere ⟨rfl, gap, back, blank, rfl⟩
    | cons next front => exact later front gap back blank (List.cons.inj same).2

theorem unclosed_nil : Unclosed [] := fun front _ _ _ same => by cases front <;> cases same

theorem blockBody_eq_some_iff : blockBody chars = some body ↔
    ∃ gap rest, Blank gap ∧ chars = body ++ '\x7d' :: (gap ++ ')' :: rest) ∧ Unclosed body := by
  induction chars generalizing body with
  | nil => simp [blockBody]
  | cons char chars induction =>
      have test : (char == '\x7d' && (Text.skipBlanks chars).head? == some ')') = true ↔
          Closes char chars := by
        rw [Bool.and_eq_true, beq_iff_eq, beq_iff_eq, closes_iff, Closes]
      rw [blockBody]
      by_cases closing : Closes char chars
      · rw [if_pos (test.mpr closing)]
        rcases closing with ⟨rfl, gap, rest, blank, rfl⟩
        constructor
        · rintro ⟨⟩
          exact ⟨gap, rest, blank, rfl, unclosed_nil⟩
        · rintro ⟨_, _, _, shape, unclosed⟩
          cases body with
          | nil => rfl
          | cons next more =>
              cases (List.cons.inj shape).1
              have ⟨back, more_eq⟩ := exists_of_closes blank (List.cons.inj shape).2.symm
              exact absurd ⟨rfl, gap, back, blank, more_eq⟩ (unclosed_cons_iff.mp unclosed).1
      · rw [if_neg (test.not.mpr closing), Option.map_eq_some_iff]
        constructor
        · rintro ⟨inner, found, rfl⟩
          have ⟨gap, rest, blank, shape, unclosed⟩ := induction.mp found
          refine ⟨gap, rest, blank, by rw [shape]; rfl, unclosed_cons_iff.mpr ⟨?_, unclosed⟩⟩
          rintro ⟨rfl, innerGap, back, innerBlank, rfl⟩
          exact closing ⟨rfl, innerGap, _, innerBlank, by rw [shape, List.append_assoc]; rfl⟩
        · rintro ⟨gap, rest, blank, shape, unclosed⟩
          cases body with
          | nil =>
              cases shape
              exact absurd ⟨rfl, gap, rest, blank, rfl⟩ closing
          | cons next more =>
              cases shape
              have inner := (unclosed_cons_iff.mp unclosed).2
              exact ⟨more, induction.mpr ⟨gap, rest, blank, rfl, inner⟩, rfl⟩

theorem block?_eq_some_iff : block? chars = some body ↔
    ∃ block rest, IsBlock block body ∧ chars = block ++ rest := by
  simp only [block?, Option.bind_eq_bind, Option.bind_eq_some_iff, afterWord?_eq_some_iff,
    afterChar?_eq_some_iff, blockBody_eq_some_iff]
  constructor
  · rintro ⟨afterMarker, rfl, afterParen, paren, afterBrace, brace, third, rest, thirdBlank, shape,
      unclosed⟩
    have ⟨first, firstBlank, firstShape⟩ := exists_gap afterMarker
    have ⟨second, secondBlank, secondShape⟩ := exists_gap afterParen
    refine ⟨_, rest,
      ⟨⟨first, second, third, firstBlank, secondBlank, thirdBlank, rfl⟩, unclosed⟩, ?_⟩
    rw [firstShape, paren, secondShape, brace, shape]
    simp
  · rintro ⟨block, rest,
      ⟨⟨first, second, third, firstBlank, secondBlank, thirdBlank, rfl⟩, unclosed⟩, rfl⟩
    exact ⟨first ++ '(' :: (second ++ '\x7b' :: (body ++ '\x7d' :: (third ++ ')' :: rest))),
      by simp, _, skipBlanks_gap firstBlank (by decide), _, skipBlanks_gap secondBlank (by decide),
      third, rest, thirdBlank, rfl, unclosed⟩

theorem isSome_block?_iff : (block? chars).isSome ↔ BeginsBlock chars := by
  rw [Option.isSome_iff_exists]
  simp only [block?_eq_some_iff]
  exact ⟨fun ⟨body, block, rest, isBlock, whole⟩ => ⟨block, body, rest, isBlock, whole⟩,
    fun ⟨block, body, rest, isBlock, whole⟩ => ⟨body, block, rest, isBlock, whole⟩⟩

/-! ## Exported classes -/

/-- The name of a class: a letter or an underscore, and digits also behind. -/
def IsIdentifier (name : List Char) : Prop :=
  (∃ first, name.head? = some first ∧ beginsIdentifier first = true) ∧
    ∀ char ∈ name, continuesIdentifier char = true

structure Exports (chars : List Char) (name : String) : Prop where
  isIdentifier : IsIdentifier name.toList
  spelled : ∃ first second rest, Blank first ∧ first ≠ [] ∧ Blank second ∧ second ≠ [] ∧
    chars = "export".toList ++ (first ++ ("class".toList ++ (second ++ (name.toList ++ rest)))) ∧
    ∀ next, rest.head? = some next → continuesIdentifier next = false

def BeginsExport (chars : List Char) : Prop := ∃ name, Exports chars name

theorem continues_of_begins {char : Char} (begins : beginsIdentifier char = true) :
    continuesIdentifier char = true := by
  rw [beginsIdentifier, Bool.or_eq_true] at begins
  rw [continuesIdentifier, Bool.or_eq_true]
  refine begins.imp_left fun letter => ?_
  rw [Char.isAlphanum, letter, Bool.true_or]

theorem bounds_of_continues {char : Char} (continues : continuesIdentifier char = true) :
    48 ≤ char.toNat ∧ char.toNat ≤ 122 := by
  change (decide ('A'.val ≤ char.val ∧ char.val ≤ 'Z'.val) ||
    (decide ('a'.val ≤ char.val) && decide (char.val ≤ 'z'.val)) ||
    (decide ('0'.val ≤ char.val) && decide (char.val ≤ '9'.val)) || char == '_') = true at continues
  simp only [Bool.or_eq_true, Bool.and_eq_true, decide_eq_true_eq, beq_iff_eq,
    UInt32.le_iff_toNat_le] at continues
  rcases continues with ((range | range) | range) | rfl
  · exact ⟨Nat.le_trans (by decide) range.1, Nat.le_trans range.2 (by decide)⟩
  · exact ⟨Nat.le_trans (by decide) range.1, Nat.le_trans range.2 (by decide)⟩
  · exact ⟨Nat.le_trans (by decide) range.1, Nat.le_trans range.2 (by decide)⟩
  · decide

theorem not_isBlank_of_continues {char : Char} (continues : continuesIdentifier char = true) :
    Text.isBlank char = false := by
  have ⟨lower, upper⟩ := bounds_of_continues continues
  simp only [Text.isBlank, Bool.or_eq_false_iff, Bool.and_eq_false_iff, decide_eq_false_iff_not,
    beq_eq_false_iff_ne]
  omega

theorem isIdentifier_takeWhile {char : Char} {more : List Char}
    (begins : beginsIdentifier char = true) :
    IsIdentifier ((char :: more).takeWhile continuesIdentifier) := by
  refine ⟨⟨char, ?_, begins⟩, fun next member => List.mem_takeWhile_imp member⟩
  rw [List.takeWhile_cons_of_pos (continues_of_begins begins), List.head?_cons]

theorem takeWhile_continues {identifier : List Char}
    (all : ∀ char ∈ identifier, continuesIdentifier char = true)
    (ends : ∀ next, rest.head? = some next → continuesIdentifier next = false) :
    (identifier ++ rest).takeWhile continuesIdentifier = identifier := by
  rw [List.takeWhile_append_of_pos all]
  cases rest with
  | nil => simp
  | cons next more => simp [ends next rfl]

theorem exports_of_exportedClass? (taken : exportedClass? chars = some name) :
    Exports chars name := by
  simp only [exportedClass?, Option.bind_eq_bind, Option.bind_eq_some_iff,
    afterWord?_eq_some_iff] at taken
  rcases taken with ⟨_, rfl, _, firstTaken, _, rfl, _, secondTaken, taken⟩
  have ⟨first, firstBlank, firstSome, firstShape⟩ := exists_of_afterBlanks? firstTaken
  have ⟨second, secondBlank, secondSome, secondShape⟩ := exists_of_afterBlanks? secondTaken
  split at taken
  · rename_i char more
    split at taken
    · rename_i begins
      cases taken
      have whole : (String.ofList ((char :: more).takeWhile continuesIdentifier)).toList ++
          (char :: more).dropWhile continuesIdentifier = char :: more := by
        rw [String.toList_ofList, List.takeWhile_append_dropWhile]
      refine ⟨?_, first, second, (char :: more).dropWhile continuesIdentifier, firstBlank,
        firstSome, secondBlank, secondSome, ?_, fun next ends => ?_⟩
      · rw [String.toList_ofList]
        exact isIdentifier_takeWhile begins
      · rw [whole, ← secondShape, ← firstShape]
      · have stopped := List.head?_dropWhile_not continuesIdentifier (char :: more)
        rw [ends] at stopped
        simpa using stopped
    · cases taken
  · cases taken

theorem exportedClass?_of_exports (exports : Exports chars name) :
    exportedClass? chars = some name := by
  rcases exports with ⟨⟨⟨char, head, begins⟩, all⟩, first, second, rest, firstBlank, firstSome,
    secondBlank, secondSome, rfl, ends⟩
  have whole := takeWhile_continues all ends
  rcases List.head?_eq_some_iff.mp head with ⟨more, identifier⟩
  have notBlank := not_isBlank_of_continues (continues_of_begins begins)
  simp only [exportedClass?, Option.bind_eq_bind, Option.bind_eq_some_iff, afterWord?_eq_some_iff]
  rw [identifier, List.cons_append] at whole ⊢
  refine ⟨_, rfl, _, afterBlanks?_append firstBlank firstSome (by decide), _, rfl, _,
    afterBlanks?_append secondBlank secondSome notBlank, ?_⟩
  dsimp only
  rw [if_pos begins, whole, ← identifier, String.ofList_toList]

theorem exportedClass?_eq_some_iff : exportedClass? chars = some name ↔ Exports chars name :=
  ⟨exports_of_exportedClass?, exportedClass?_of_exports⟩

theorem exports_append_iff : Exports (front ++ ')' :: rest) name ↔ Exports front name := by
  constructor
  · rintro ⟨isIdentifier, first, second, tail, firstBlank, firstSome, secondBlank, secondSome,
      shape, ends⟩
    have absent :
        ')' ∉ "export".toList ++ (first ++ ("class".toList ++ (second ++ name.toList))) := by
      have notFirst : ')' ∉ first := fun member => absurd (firstBlank _ member) (by decide)
      have notSecond : ')' ∉ second := fun member => absurd (secondBlank _ member) (by decide)
      have notName : ')' ∉ name.toList := fun member => absurd (isIdentifier.2 _ member) (by decide)
      simp [notFirst, notSecond, notName]
    have moved : front ++ ')' :: rest = ("export".toList ++ (first ++ ("class".toList ++
        (second ++ name.toList)))) ++ tail := by simpa using shape
    have ⟨between, front_eq, tail_eq⟩ := exists_of_append_eq absent moved
    refine ⟨isIdentifier, first, second, between, firstBlank, firstSome, secondBlank, secondSome,
      by simp [front_eq], fun next head => ends next ?_⟩
    rw [tail_eq, List.head?_append, head, Option.some_or]
  · rintro ⟨isIdentifier, first, second, between, firstBlank, firstSome, secondBlank, secondSome,
      rfl, ends⟩
    refine ⟨isIdentifier, first, second, between ++ ')' :: rest, firstBlank, firstSome,
      secondBlank, secondSome, by simp, fun next head => ?_⟩
    cases between with
    | nil =>
        cases head
        decide
    | cons char more => exact ends next head

theorem exportedClass?_append (front rest : List Char) :
    exportedClass? (front ++ ')' :: rest) = exportedClass? front := by
  refine Option.ext fun name => ?_
  rw [exportedClass?_eq_some_iff, exportedClass?_eq_some_iff, exports_append_iff]

inductive FirstExport (chars : List Char) : Option String → Prop
  | found {before rest : List Char} {name : String} (first : FirstAt BeginsExport chars before rest)
      (exports : Exports rest name) : FirstExport chars (some name)
  | absent (nowhere : ∀ rest, rest <:+ chars → ¬BeginsExport rest) : FirstExport chars none

theorem isSome_exportedClass?_iff : (exportedClass? chars).isSome ↔ BeginsExport chars := by
  rw [Option.isSome_iff_exists]
  simp only [exportedClass?_eq_some_iff, BeginsExport]

theorem firstExport_iff {export? : Option String} :
    FirstExport chars export? ↔ search exportedClass? chars = export? := by
  have begins : (fun later => ((exportedClass? later).isSome : Prop)) = BeginsExport :=
    funext fun later => propext isSome_exportedClass?_iff
  constructor
  · rintro (⟨first, exports⟩ | nowhere)
    · exact search_eq_some_iff.mpr ⟨_, _, begins ▸ first, exportedClass?_of_exports exports⟩
    · refine search_eq_none_iff.mpr fun rest suffix => ?_
      rw [← Option.not_isSome_iff_eq_none, isSome_exportedClass?_iff]
      exact nowhere rest suffix
  · rintro rfl
    cases taken : search exportedClass? chars with
    | some name =>
        have ⟨before, rest, first, found⟩ := search_eq_some_iff.mp taken
        exact .found (begins ▸ first) (exports_of_exportedClass? found)
    | none =>
        refine .absent fun rest suffix => ?_
        rw [← isSome_exportedClass?_iff, Option.not_isSome_iff_eq_none]
        exact search_eq_none_iff.mp taken rest suffix

/-! ## From the first mention to the end of the block -/

/-- The text is divided by its first mention of a component and its first block: what is between
the end of the mention and the end of the block, and what is after the block. -/
structure Divided (chars between after : List Char) : Prop where
  mentioned : ∃ before, FirstAt (marker.toList <+: ·) chars before
    (marker.toList ++ (between ++ after))
  enclosed : ∃ before block body, FirstAt BeginsBlock chars before (block ++ after) ∧
    IsBlock block body

theorem IsBlock.ends (isBlock : IsBlock block body) :
    ∃ inner, block = marker.toList ++ (inner ++ [')']) := by
  rcases isBlock.spelled with ⟨first, second, third, -, -, -, rfl⟩
  exact ⟨first ++ '(' :: (second ++ '\x7b' :: (body ++ '\x7d' :: third)), by simp⟩

theorem exists_inside {before word inner : List Char}
    (mention : chars = front ++ (word ++ rest))
    (block : chars = before ++ (word ++ (inner ++ ')' :: after)))
    (earlier : front.length ≤ before.length) : ∃ inside, rest = inside ++ ')' :: after := by
  refine ⟨(before ++ (word ++ inner)).drop (front ++ word).length, ?_⟩
  have dropped : rest = chars.drop (front ++ word).length := by
    rw [mention, ← List.append_assoc, List.drop_left]
  have moved : chars = (before ++ (word ++ inner)) ++ ')' :: after := by simp [block]
  rw [dropped, moved, List.drop_append_of_le_length]
  simp only [List.length_append]
  omega

theorem FirstAt.exists_inside {before : List Char}
    (first : FirstAt (marker.toList <+: ·) chars front (marker.toList ++ rest))
    (enclosed : FirstAt BeginsBlock chars before (block ++ after)) (isBlock : IsBlock block body) :
    ∃ inside, rest = inside ++ ')' :: after := by
  have ⟨inner, block_eq⟩ := isBlock.ends
  have whole : chars = before ++ (marker.toList ++ (inner ++ ')' :: after)) := by
    rw [enclosed.whole, block_eq]
    simp
  exact Component.exists_inside first.whole whole
    (first.first _ _ whole (List.prefix_append ..))

theorem Divided.ends (divided : Divided chars between after) :
    ∃ inside, between = inside ++ [')'] := by
  have ⟨_, first⟩ := divided.mentioned
  have ⟨_, _, _, enclosed, isBlock⟩ := divided.enclosed
  have ⟨inside, shape⟩ := FirstAt.exists_inside first enclosed isBlock
  exact ⟨inside, List.append_cancel_right (shape.trans (by simp))⟩

theorem search_marker_eq_some_iff : search (afterWord? marker) chars = some rest ↔
    ∃ before, FirstAt (marker.toList <+: ·) chars before (marker.toList ++ rest) := by
  have begins : (fun later => ((afterWord? marker later).isSome : Prop)) =
      (marker.toList <+: ·) := by
    refine funext fun later => propext ?_
    rw [Option.isSome_iff_exists]
    simp only [afterWord?_eq_some_iff]
    exact ⟨fun ⟨rest, shape⟩ => ⟨rest, shape.symm⟩, fun ⟨rest, shape⟩ => ⟨rest, shape.symm⟩⟩
  rw [search_eq_some_iff, begins]
  simp only [afterWord?_eq_some_iff]
  constructor
  · rintro ⟨before, _, first, rfl⟩
    exact ⟨before, first⟩
  · exact fun ⟨before, first⟩ => ⟨before, _, first, rfl⟩

theorem isSome_search_block?_iff :
    (search block? chars).isSome ↔ ∃ between after, Divided chars between after := by
  have begins : (fun later => ((block? later).isSome : Prop)) = BeginsBlock :=
    funext fun later => propext isSome_block?_iff
  rw [Option.isSome_iff_exists]
  simp only [search_eq_some_iff, begins]
  constructor
  · rintro ⟨body, before, _, enclosed, found⟩
    rcases block?_eq_some_iff.mp found with ⟨block, after, isBlock, rfl⟩
    have ⟨inner, block_eq⟩ := isBlock.ends
    have mentioned : search (afterWord? marker) chars ≠ none := by
      intro nowhere
      have missed := search_eq_none_iff.mp nowhere (block ++ after)
        ⟨before, enclosed.whole.symm⟩
      rw [block_eq, List.append_assoc, afterWord?_eq_some_iff.mpr rfl] at missed
      cases missed
    have ⟨rest, taken⟩ := Option.ne_none_iff_exists'.mp mentioned
    have ⟨front, first⟩ := search_marker_eq_some_iff.mp taken
    have ⟨inside, rest_eq⟩ := FirstAt.exists_inside first enclosed isBlock
    refine ⟨inside ++ [')'], after, ⟨front, ?_⟩, before, block, body, enclosed, isBlock⟩
    rw [List.append_assoc, List.singleton_append, ← rest_eq]
    exact first
  · rintro ⟨between, after, -, before, block, body, enclosed, isBlock⟩
    exact ⟨body, before, _, enclosed, block?_eq_some_iff.mpr ⟨block, after, isBlock, rfl⟩⟩

/-- The class is looked for from the mention on, before the end of the block and then after it. -/
theorem Divided.className?_eq (divided : Divided chars between after) :
    className? chars = (search exportedClass? between).or (search exportedClass? after) := by
  have ⟨inside, between_eq⟩ := divided.ends
  have nothing : exportedClass? [] = none := rfl
  have inBetween : search exportedClass? (inside ++ [')']) = search exportedClass? inside :=
    (search_append nothing fun front => exportedClass?_append front []).trans Option.or_none
  have inAll : search exportedClass? (inside ++ ')' :: after) =
      (search exportedClass? inside).or (search exportedClass? after) :=
    search_append nothing fun front => exportedClass?_append front after
  rw [className?, search_marker_eq_some_iff.mpr divided.mentioned, between_eq, inBetween,
    List.append_assoc]
  exact inAll

/-- A component is given the class that is exported first after its block, unless there is another
one between the first mention of a component and the end of the block: then it is given that. -/
theorem className_exported (content path : String) :
    ((extract? content path).isSome ↔ ∃ between after, Divided content.toList between after) ∧
      ∀ component between after, extract? content path = some component →
        Divided content.toList between after →
        (FirstExport after component.className ↔ FirstExport between none ∨
          ∃ name, FirstExport between (some name) ∧ FirstExport after (some name)) ∧
        ∀ name, FirstExport between (some name) → component.className = some name := by
  constructor
  · rw [extract?, Option.isSome_map, isSome_search_block?_iff]
  · intro component between after extracted divided
    have className_eq : component.className =
        (search exportedClass? between).or (search exportedClass? after) := by
      rcases Option.map_eq_some_iff.mp extracted with ⟨body, -, rfl⟩
      exact divided.className?_eq
    simp only [firstExport_iff, className_eq]
    cases search exportedClass? between with
    | none => simp
    | some name => simp [eq_comm]

/-! ## Texts with two classes -/

/-- A text is divided where its first mention of a component ends and where its first block does. -/
theorem divided_of_drop (mention before : List Char)
    (mentioned : chars = mention ++ (marker.toList ++ (between ++ after)))
    (notMentioned : ∀ index < mention.length, ¬marker.toList <+: chars.drop index)
    (enclosed : chars = before ++ (block ++ after)) (isBlock : IsBlock block body)
    (notEnclosed : ∀ index < before.length, (block? (chars.drop index)).isSome = false) :
    Divided chars between after where
  mentioned := ⟨mention, firstAt_of_drop mentioned (List.prefix_append ..) notMentioned⟩
  enclosed := by
    refine ⟨before, block, body, firstAt_of_drop enclosed ⟨block, body, after, isBlock, rfl⟩ ?_,
      isBlock⟩
    intro index isBefore begins
    rw [← isSome_block?_iff, notEnclosed index isBefore] at begins
    cases begins

theorem isBlock_empty : IsBlock "@Component(\x7b\x7d)".toList [] :=
  ⟨⟨[], [], [], by decide, by decide, by decide, by decide⟩, unclosed_nil⟩

def cardClass : String := "\nexport class Card \x7b\x7d\n"

def laterText : String := "export class Base \x7b\x7d\n@Component(\x7b\x7d)" ++ cardClass

def earlierText : String :=
  "/** Base of every @Component. */\nexport class Base \x7b\x7d\n@Component(\x7b\x7d)" ++ cardClass

theorem className_exported_later :
    extract? laterText "card.ts" = some ⟨"Card", some "Card", none, none⟩ ∧
      Divided laterText.toList "(\x7b\x7d)".toList cardClass.toList ∧
      FirstExport cardClass.toList (some "Card") := by
  have extracted : extract? laterText "card.ts" = some ⟨"Card", some "Card", none, none⟩ := by
    decide +kernel
  have divided : Divided laterText.toList "(\x7b\x7d)".toList cardClass.toList :=
    divided_of_drop "export class Base \x7b\x7d\n".toList "export class Base \x7b\x7d\n".toList
      (by decide +kernel) (by decide +kernel) (by decide +kernel) isBlock_empty (by decide +kernel)
  have nothing : FirstExport "(\x7b\x7d)".toList none := firstExport_iff.mpr (by decide +kernel)
  have ⟨_, exported⟩ := className_exported laterText "card.ts"
  exact ⟨extracted, divided, (exported _ _ _ extracted divided).1.mpr (.inl nothing)⟩

/-- The class after the block is not the one that the component is given. -/
theorem className_mentioned_earlier :
    extract? earlierText "card.ts" = some ⟨"Base", some "Base", none, none⟩ ∧
      Divided earlierText.toList ". */\nexport class Base \x7b\x7d\n@Component(\x7b\x7d)".toList
        cardClass.toList ∧
      FirstExport cardClass.toList (some "Card") := by
  refine ⟨by decide +kernel, ?_, firstExport_iff.mpr (by decide +kernel)⟩
  exact divided_of_drop "/** Base of every ".toList
    "/** Base of every @Component. */\nexport class Base \x7b\x7d\n".toList
    (by decide +kernel) (by decide +kernel) (by decide +kernel) isBlock_empty (by decide +kernel)

end WorkspaceGraph.Source.Component
