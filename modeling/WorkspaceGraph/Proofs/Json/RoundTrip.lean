import WorkspaceGraph.Proofs.Json.Names
import WorkspaceGraph.Proofs.Json.Numbers
import WorkspaceGraph.Proofs.Json.Texts
/-!
Values read back. Whatever blanks a style puts between the parts of a value, and whichever way it
writes the characters of texts, reading gives the value that was written.
-/

namespace WorkspaceGraph.Json

/-- Values without floating-point numbers, in whose records no name is repeated. -/
inductive Plain : Json → Prop
  | null : Plain null
  | bool (value : Bool) : Plain (bool value)
  | int (value : Int) : Plain (int value)
  | text (value : String) : Plain (text value)
  | list (items : List Json) (each : ∀ item ∈ items, Plain item) : Plain (list items)
  | record (fields : List (String × Json)) (names : DistinctNames fields)
      (each : ∀ field ∈ fields, Plain field.2) : Plain (record fields)

attribute [simp] Plain.null Plain.bool Plain.int Plain.text

@[simp] theorem plain_list {items : List Json} :
    Plain (list items) ↔ ∀ item ∈ items, Plain item := by
  constructor
  · rintro ⟨⟩
    assumption
  · exact .list items

@[simp] theorem plain_record {fields : List (String × Json)} :
    Plain (record fields) ↔ DistinctNames fields ∧ ∀ field ∈ fields, Plain field.2 := by
  constructor
  · rintro ⟨⟩
    exact ⟨‹_›, ‹_›⟩
  · exact fun parts => .record fields parts.1 parts.2

@[simp] theorem plain_textOrNull (value : Option String) : Plain (textOrNull value) := by
  cases value with
  | none => exact .null
  | some value => exact .text value

@[simp] theorem plain_boolOrNull (value : Option Bool) : Plain (boolOrNull value) := by
  cases value with
  | none => exact .null
  | some value => exact .bool value

@[simp] theorem plain_texts (values : List String) : Plain (texts values) := by
  simp [texts]

open Writer Reader

/-! ## Blanks -/

def Blank (chars : List Char) : Prop := ∀ char ∈ chars, isSpace char = true

theorem Blank.nil : Blank [] := fun _ member => absurd member List.not_mem_nil

/-- The style puts nothing but blanks around its marks. -/
structure Style.Readable (style : Style) : Prop where
  separator : ∃ blanks, style.separator.toList = ',' :: blanks ∧ Blank blanks
  colon : ∃ blanks, style.colon.toList = ':' :: blanks ∧ Blank blanks

theorem readable_compact : Style.compact.Readable :=
  ⟨⟨[], rfl, .nil⟩, ⟨[], rfl, .nil⟩⟩

theorem readable_spaced : Style.spaced.Readable :=
  ⟨⟨[' '], rfl, by simp [Blank, isSpace]⟩, ⟨[' '], rfl, by simp [Blank, isSpace]⟩⟩

theorem readable_indented : Style.indented.Readable :=
  ⟨⟨[], rfl, .nil⟩, ⟨[' '], rfl, by simp [Blank, isSpace]⟩⟩

variable {style : Style} {depth fuel : Nat} {blanks rest : List Char}

theorem blank_newline : Blank (newline style depth) := by
  intro char member
  unfold newline at member
  split at member
  · cases member
  · rcases List.mem_cons.mp member with rfl | space
    · rfl
    · rw [List.eq_of_mem_replicate space]
      rfl

theorem Blank.append {more : List Char} (first : Blank blanks) (second : Blank more) :
    Blank (blanks ++ more) :=
  fun char member => (List.mem_append.mp member).elim (first char) (second char)

theorem Blank.skipSpace (blank : Blank blanks) :
    skipSpace (blanks ++ rest) = Reader.skipSpace rest := by
  rw [Reader.skipSpace, List.dropWhile_append_of_pos blank, Reader.skipSpace]

theorem Blank.skipSpace_all (blank : Blank blanks) : Reader.skipSpace blanks = [] := by
  rw [← List.append_nil blanks]
  exact blank.skipSpace

theorem skipSpace_cons {char : Char} (visible : isSpace char = false) :
    skipSpace (char :: rest) = char :: rest :=
  List.dropWhile_cons_of_neg (by simp [visible])

theorem endsNumber_of_isSpace {char : Char} (space : isSpace char = true) :
    EndsNumber (char :: rest) := by
  simp only [isSpace, Bool.or_eq_true, beq_iff_eq] at space
  intro other same
  cases same
  rcases space with ((rfl | rfl) | rfl) | rfl
  all_goals decide

theorem Blank.endsNumber (blank : Blank blanks) (ends : EndsNumber rest) :
    EndsNumber (blanks ++ rest) := by
  cases blanks with
  | nil => exact ends
  | cons char more => exact endsNumber_of_isSpace (blank char (List.mem_cons_self ..))

theorem Blank.endsNumber_all (blank : Blank blanks) : EndsNumber blanks := by
  have ends : EndsNumber [] := fun _ none => nomatch none
  rw [← List.append_nil blanks]
  exact blank.endsNumber ends

/-! ## First characters -/

def BeginsValue (char : Char) : Prop :=
  isSpace char = false ∧ char ≠ ']' ∧ char ≠ '\ufeff'

instance (char : Char) : Decidable (BeginsValue char) :=
  inferInstanceAs (Decidable (_ ∧ _))

theorem beginsValue_of_isDigit {digit : Char} (shown : isDigit digit = true) :
    BeginsValue digit := by
  have differs : ∀ letter, isDigit letter = false → digit ≠ letter :=
    fun letter notDigit => (ne_of_isDigit shown notDigit).symm
  refine ⟨?_, differs _ rfl, differs _ rfl⟩
  simp [isSpace, differs ' ' rfl, differs '\t' rfl, differs '\n' rfl, differs '\r' rfl]

theorem toList_int (value : Int) : ∃ first more, (toString value).toList = first :: more ∧
    BeginsValue first ∧ first ≠ '"' ∧ first ≠ '\x7b' ∧ first ≠ '[' := by
  cases value with
  | ofNat number =>
      rcases List.exists_cons_of_ne_nil (toDigits_ne_nil number) with ⟨first, more, same⟩
      have shown : isDigit first = true := isDigit_of_mem_toDigits (by rw [same]; simp)
      have differs : ∀ letter, isDigit letter = false → first ≠ letter :=
        fun letter notDigit => (ne_of_isDigit shown notDigit).symm
      have written : (toString (Int.ofNat number)).toList = first :: more := by
        rw [toList_ofNat, same]
      exact ⟨first, more, written, beginsValue_of_isDigit shown, differs _ rfl, differs _ rfl,
        differs _ rfl⟩
  | negSucc number => exact ⟨'-', _, toList_negSucc number, by decide, by decide⟩

theorem write_begins {value : Json} (plain : Plain value) :
    ∃ first more, write style depth value = first :: more ∧ BeginsValue first := by
  cases plain with
  | null => exact ⟨'n', _, rfl, by decide⟩
  | bool value =>
      cases value with
      | true => exact ⟨'t', _, rfl, by decide⟩
      | false => exact ⟨'f', _, rfl, by decide⟩
  | int value =>
      rcases toList_int value with ⟨first, more, same, begins, -⟩
      exact ⟨first, more, same, begins⟩
  | text value => exact ⟨'"', _, rfl, by decide⟩
  | list items each =>
      cases items with
      | nil => exact ⟨'[', _, rfl, by decide⟩
      | cons item others => exact ⟨'[', _, by rw [write]; rfl, by decide⟩
  | record fields names each =>
      cases fields with
      | nil => exact ⟨'\x7b', _, rfl, by decide⟩
      | cons field others => exact ⟨'\x7b', _, by rw [write]; rfl, by decide⟩

/-! ## Values -/

def Reads (style : Style) (value : Json) : Prop :=
  ∀ depth fuel rest, EndsNumber rest → (write style depth value).length ≤ fuel →
    readValue fuel (write style depth value ++ rest) = .ok (value, rest)

theorem reads_of_scalar {value : Json} (plain : Plain value)
    (scalar : ∀ depth rest, EndsNumber rest → ∀ fuel,
      readValue (fuel + 1) (write style depth value ++ rest) = .ok (value, rest)) :
    Reads style value := by
  intro depth fuel rest ends enough
  cases fuel with
  | zero =>
      rcases @write_begins style depth value plain with ⟨first, more, same, -⟩
      rw [same] at enough
      cases enough
  | succ fuel => exact scalar depth rest ends fuel

theorem reads_null : Reads style null :=
  reads_of_scalar .null fun _ _ _ _ => rfl

theorem reads_bool (value : Bool) : Reads style (bool value) := by
  apply reads_of_scalar (.bool value)
  intro depth rest ends fuel
  cases value <;> rfl

theorem readValue_of_scalar {first : Char} (noText : first ≠ '"') (noRecord : first ≠ '\x7b')
    (noList : first ≠ '[') : readValue (fuel + 1) (first :: rest) = readScalar (first :: rest) := by
  rw [readValue.eq_def]
  dsimp only
  split
  · cases ‹first :: rest = _›
    exact absurd rfl noText
  · cases ‹first :: rest = _›
    exact absurd rfl noRecord
  · cases ‹first :: rest = _›
    exact absurd rfl noList
  · rfl

theorem reads_int (value : Int) : Reads style (int value) := by
  apply reads_of_scalar (.int value)
  intro depth rest ends fuel
  rcases toList_int value with ⟨first, more, same, -, noText, noRecord, noList⟩
  have read := readScalar_int value ends
  rw [write, same, List.cons_append] at *
  rw [readValue_of_scalar noText noRecord noList, read]

theorem reads_text (value : String) : Reads style (text value) := by
  apply reads_of_scalar (.text value)
  intro depth rest ends fuel
  have read := @readText_quote rest style.asciiOnly value
  rw [write]
  rw [quote, List.cons_append, List.cons_append] at *
  rw [readValue, read]
  rfl

theorem skipSpace_write {value : Json} (plain : Plain value) :
    skipSpace (write style depth value ++ rest) = write style depth value ++ rest := by
  rcases write_begins plain with ⟨first, more, same, begins⟩
  rw [same, List.cons_append, skipSpace_cons begins.1]

/-! ## Lists -/

theorem endsNumber_mark {mark : Char} (isMark : mark = ',' ∨ mark = ']' ∨ mark = '\x7d') :
    EndsNumber (mark :: rest) := by
  intro char same
  cases same
  rcases isMark with rfl | rfl | rfl
  all_goals decide

theorem writeItems_cons (readable : style.Readable) (item : Json) (others : List Json) :
    ∃ gap, Blank gap ∧ writeItems style depth (item :: others) =
      ',' :: (gap ++ (write style depth item ++ writeItems style depth others)) := by
  rcases readable.separator with ⟨blanks, separator, blank⟩
  exact ⟨blanks ++ newline style depth, blank.append blank_newline, by simp [writeItems, separator]⟩

theorem readItems_write (readable : style.Readable) {closing : List Char} (blank : Blank closing)
    {item : Json} {others : List Json} (plain : ∀ value ∈ item :: others, Plain value)
    (reads : ∀ value ∈ item :: others, Reads style value)
    (enough : (write style depth item ++ writeItems style depth others).length < fuel) :
    readItems fuel (write style depth item ++ writeItems style depth others ++
      closing ++ ']' :: rest) = .ok (item :: others, rest) := by
  induction others generalizing item fuel with
  | nil =>
      cases fuel with
      | zero => cases enough
      | succ fuel =>
          rw [writeItems, List.append_nil] at enough ⊢
          have close : EndsNumber (closing ++ ']' :: rest) :=
            blank.endsNumber (endsNumber_mark (.inr (.inl rfl)))
          have read := reads item (List.mem_cons_self ..) depth fuel _ close
            (Nat.le_of_lt_succ enough)
          rw [List.append_assoc, readItems, read]
          dsimp only
          rw [blank.skipSpace, skipSpace_cons rfl]
          rfl
  | cons next others induction =>
      cases fuel with
      | zero => cases enough
      | succ fuel =>
          rcases List.forall_mem_cons.mp plain with ⟨-, plain⟩
          rcases List.forall_mem_cons.mp reads with ⟨first, reads⟩
          rcases writeItems_cons readable next others with ⟨gap, gapBlank, written⟩
          rw [written] at enough ⊢
          simp only [List.length_append, List.length_cons] at enough
          -- The comma alone makes what is left shorter, so one unit of fuel less is enough.
          have later := @induction fuel next plain reads (by rw [List.length_append]; omega)
          have parts : write style depth item ++ ',' :: (gap ++ (write style depth next ++
                writeItems style depth others)) ++ closing ++ ']' :: rest =
              write style depth item ++ ',' :: (gap ++ (write style depth next ++
                writeItems style depth others ++ closing ++ ']' :: rest)) := by simp
          have start : skipSpace (write style depth next ++ writeItems style depth others ++
                closing ++ ']' :: rest) = write style depth next ++ writeItems style depth others ++
                closing ++ ']' :: rest := by
            simp only [List.append_assoc]
            exact skipSpace_write (plain next (List.mem_cons_self ..))
          rw [parts, readItems, first depth fuel _ (endsNumber_mark (.inl rfl)) (by omega)]
          dsimp only
          rw [skipSpace_cons rfl]
          change (readItems fuel (skipSpace (gap ++ _))).map _ = _
          rw [gapBlank.skipSpace, start, later]
          rfl

theorem reads_list (readable : style.Readable) {items : List Json}
    (plain : ∀ item ∈ items, Plain item) (reads : ∀ item ∈ items, Reads style item) :
    Reads style (list items) := by
  intro depth fuel rest ends enough
  cases fuel with
  | zero => cases items <;> simp [write] at enough
  | succ fuel =>
      cases items with
      | nil => rfl
      | cons item others =>
          rcases @write_begins style (depth + 1) item (plain item (List.mem_cons_self ..)) with
            ⟨first, more, same, visible, notClosed, -⟩
          rw [write] at enough ⊢
          have read : readItems fuel (write style (depth + 1) item ++
                writeItems style (depth + 1) others ++ newline style depth ++ ']' :: rest) =
              .ok (item :: others, rest) :=
            readItems_write readable blank_newline plain reads (by simp at enough ⊢; omega)
          have parts : '[' :: newline style (depth + 1) ++ write style (depth + 1) item ++
                writeItems style (depth + 1) others ++ newline style depth ++ [']'] ++ rest =
              '[' :: (newline style (depth + 1) ++ (write style (depth + 1) item ++
                writeItems style (depth + 1) others ++ newline style depth ++ ']' :: rest)) := by
            simp
          rw [parts, readValue, blank_newline.skipSpace]
          simp only [same, List.cons_append] at read ⊢
          rw [skipSpace_cons visible]
          -- An item does not begin with a bracket, so this is not the empty list.
          split
          · cases ‹first :: _ = _›
            exact absurd rfl notClosed
          · rw [read]
            rfl

/-! ## Records -/

def writeField (style : Style) (depth : Nat) (field : String × Json) : List Char :=
  quote style.asciiOnly field.1 ++ style.colon.toList ++ write style depth field.2

theorem length_write_lt (field : String × Json) :
    (write style depth field.2).length < (writeField style depth field).length := by
  simp [writeField, quote]
  omega

theorem writeFields_cons (readable : style.Readable) (field : String × Json)
    (others : List (String × Json)) :
    ∃ gap, Blank gap ∧ writeFields style depth (field :: others) =
      ',' :: (gap ++ (writeField style depth field ++ writeFields style depth others)) := by
  rcases readable.separator with ⟨blanks, separator, blank⟩
  exact ⟨blanks ++ newline style depth, blank.append blank_newline,
    by simp [writeFields, writeField, separator]⟩

theorem skipSpace_writeField {field : String × Json} :
    skipSpace (writeField style depth field ++ rest) = writeField style depth field ++ rest :=
  skipSpace_cons rfl

theorem readField_write (readable : style.Readable) {field : String × Json} (plain : Plain field.2)
    (reads : Reads style field.2) (ends : EndsNumber rest)
    (enough : (write style depth field.2).length ≤ fuel) :
    ∃ more after, writeField style depth field ++ rest = '"' :: more ∧
      readText ('"' :: more) = .ok (field.1, ':' :: after) ∧
      readValue fuel (skipSpace after) = .ok (field.2, rest) := by
  rcases readable.colon with ⟨blanks, colon, blank⟩
  have parts : writeField style depth field ++ rest =
      quote style.asciiOnly field.1 ++
        ':' :: (blanks ++ (write style depth field.2 ++ rest)) := by
    simp [writeField, colon]
  have value : readValue fuel (skipSpace (blanks ++ (write style depth field.2 ++ rest))) =
      .ok (field.2, rest) := by
    rw [blank.skipSpace, skipSpace_write plain, reads depth fuel rest ends enough]
  exact ⟨_, _, parts, readText_quote field.1, value⟩

theorem readFields_last {more after tail : List Char} {name : String} {value : Json}
    (named : readText ('"' :: more) = .ok (name, ':' :: after))
    (read : readValue fuel (skipSpace after) = .ok (value, rest))
    (closed : skipSpace rest = '\x7d' :: tail) :
    readFields (fuel + 1) ('"' :: more) = .ok ([(name, value)], tail) := by
  have colon : skipSpace (':' :: after) = ':' :: after := skipSpace_cons rfl
  simp only [readFields, named, colon, read, closed]

theorem readFields_further {more after tail : List Char} {name : String} {value : Json}
    (named : readText ('"' :: more) = .ok (name, ':' :: after))
    (read : readValue fuel (skipSpace after) = .ok (value, rest))
    (separated : skipSpace rest = ',' :: tail) :
    readFields (fuel + 1) ('"' :: more) = (readFields fuel (skipSpace tail)).map
      fun found => ((name, value) :: found.1, found.2) := by
  have colon : skipSpace (':' :: after) = ':' :: after := skipSpace_cons rfl
  simp only [readFields, named, colon, read, separated]

theorem readFields_write (readable : style.Readable) {closing : List Char} (blank : Blank closing)
    {field : String × Json} {others : List (String × Json)}
    (plain : ∀ other ∈ field :: others, Plain other.2)
    (reads : ∀ other ∈ field :: others, Reads style other.2)
    (enough : (writeField style depth field ++ writeFields style depth others).length ≤ fuel) :
    readFields fuel (writeField style depth field ++ writeFields style depth others ++
      closing ++ '\x7d' :: rest) = .ok (field :: others, rest) := by
  have longer := @length_write_lt style depth
  induction others generalizing field fuel with
  | nil =>
      cases fuel with
      | zero => simp [writeField, quote] at enough
      | succ fuel =>
          rw [writeFields, List.append_nil] at enough ⊢
          have close : EndsNumber (closing ++ '\x7d' :: rest) :=
            blank.endsNumber (endsNumber_mark (.inr (.inr rfl)))
          have short := Nat.le_of_lt_succ (Nat.lt_of_lt_of_le (longer field) enough)
          rcases readField_write readable (plain field (List.mem_cons_self ..))
            (reads field (List.mem_cons_self ..)) close short with ⟨more, after, shape, named, read⟩
          rw [List.append_assoc, shape]
          exact readFields_last named read (by rw [blank.skipSpace, skipSpace_cons rfl])
  | cons next others induction =>
      cases fuel with
      | zero => simp [writeField, quote] at enough
      | succ fuel =>
          rcases List.forall_mem_cons.mp plain with ⟨firstPlain, plain⟩
          rcases List.forall_mem_cons.mp reads with ⟨first, reads⟩
          have shorter := longer field
          rcases writeFields_cons readable next others with ⟨gap, gapBlank, written⟩
          rw [written] at enough ⊢
          simp only [List.length_append, List.length_cons] at enough
          have later := @induction fuel next plain reads (by rw [List.length_append]; omega)
          have parts : writeField style depth field ++ ',' :: (gap ++
                (writeField style depth next ++ writeFields style depth others)) ++
                closing ++ '\x7d' :: rest =
              writeField style depth field ++ ',' :: (gap ++ (writeField style depth next ++
                writeFields style depth others ++ closing ++ '\x7d' :: rest)) := by simp
          have start : skipSpace (writeField style depth next ++ writeFields style depth others ++
                closing ++ '\x7d' :: rest) = writeField style depth next ++
                writeFields style depth others ++ closing ++ '\x7d' :: rest := by
            simp only [List.append_assoc]
            exact skipSpace_writeField
          have short : (write style depth field.2).length ≤ fuel := by omega
          rcases readField_write readable firstPlain first (endsNumber_mark (.inl rfl))
            short with ⟨more, after, shape, named, read⟩
          rw [parts, shape, readFields_further named read (skipSpace_cons rfl),
            gapBlank.skipSpace, start, later]
          rfl

theorem reads_record (readable : style.Readable) {fields : List (String × Json)}
    (names : DistinctNames fields) (plain : ∀ field ∈ fields, Plain field.2)
    (reads : ∀ field ∈ fields, Reads style field.2) : Reads style (record fields) := by
  intro depth fuel rest ends enough
  cases fuel with
  | zero => cases fields <;> simp [write] at enough
  | succ fuel =>
      cases fields with
      | nil => rfl
      | cons field others =>
          rw [write] at enough ⊢
          have read : readFields fuel (writeField style (depth + 1) field ++
                writeFields style (depth + 1) others ++ newline style depth ++ '\x7d' :: rest) =
              .ok (field :: others, rest) :=
            readFields_write readable blank_newline plain reads
              (by simp [writeField] at enough ⊢; omega)
          have parts : '\x7b' :: newline style (depth + 1) ++ quote style.asciiOnly field.1 ++
                style.colon.toList ++ write style (depth + 1) field.2 ++
                writeFields style (depth + 1) others ++ newline style depth ++ ['\x7d'] ++ rest =
              '\x7b' :: (newline style (depth + 1) ++ (writeField style (depth + 1) field ++
                writeFields style (depth + 1) others ++ newline style depth ++
                '\x7d' :: rest)) := by
            simp [writeField]
          rw [parts, readValue, blank_newline.skipSpace]
          simp only [List.append_assoc, skipSpace_writeField] at read ⊢
          change (readFields fuel (writeField style (depth + 1) field ++ _)).map _ = _
          rw [read]
          -- Nothing is overwritten when the fields are put together, as no name is repeated.
          change Except.ok (record (ofFields (field :: others)), rest) = _
          rw [ofFields_of_distinct names]

/-! ## Whole texts -/

theorem reads_of_plain (readable : style.Readable) {value : Json} (plain : Plain value) :
    Reads style value := by
  induction plain with
  | null => exact reads_null
  | bool value => exact reads_bool value
  | int value => exact reads_int value
  | text value => exact reads_text value
  | list items each induction => exact reads_list readable each induction
  | record fields names each induction => exact reads_record readable names each induction

/-- What is written in a readable style, and blanks after it, is read as the value. -/
theorem parse_write (readable : style.Readable) {value : Json} (plain : Plain value)
    (blank : Blank blanks) :
    parse (String.ofList (write style 0 value ++ blanks)) = .ok value := by
  rcases @write_begins style 0 value plain with ⟨first, more, same, visible, -, noMark⟩
  have enough : (write style 0 value).length ≤ (write style 0 value ++ blanks).length + 1 := by
    rw [List.length_append]; omega
  have read := reads_of_plain readable plain 0 _ blanks blank.endsNumber_all enough
  have start : (write style 0 value ++ blanks).head? = some first := by
    rw [same]
    rfl
  have all : readAll (write style 0 value ++ blanks) = .ok value := by
    rw [readAll, start, skipSpace_write plain, read]
    simp [noMark, blank.skipSpace_all]
  rw [parse, String.toList_ofList, all]

theorem parse_render (readable : style.Readable) {value : Json} (plain : Plain value) :
    parse (render style value) = .ok value := by
  have read := parse_write readable plain Blank.nil
  rwa [List.append_nil] at read

end WorkspaceGraph.Json
