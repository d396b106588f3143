import WorkspaceGraph.Ingestion.Failure
import WorkspaceGraph.Proofs.Text.Trimmed
/-!
Codes of failures. A code is trimmed of underscores first and cut to its greatest length last, so
an underscore can come to stand at the end again. Apart from that a recorded code is in normal form,
and recording it once more settles it.
-/

namespace WorkspaceGraph.Failure

variable {chars : List Char} {char : Char} {code : String}

structure IsCode (code : String) : Prop where
  notEmpty : code ≠ ""
  within : code.length ≤ codeLimit
  spelled : ∀ char ∈ code.toList, isCodeChar char
  begins : code.toList.head? ≠ some '_'

/-- The normal form of codes: no underscore is at the end either. -/
structure IsNormalCode (code : String) : Prop extends IsCode code where
  ends : code.toList.getLast? ≠ some '_'

def wholeCode (code : String) : List Char :=
  stripUnderscores (replaceRuns false (Text.capitalize (Text.trim code)).toList)

/-- The code goes on behind the greatest length, and an underscore is the last character before. -/
def CutBehindUnderscore (code : String) : Prop :=
  codeLimit < (wholeCode code).length ∧ (wholeCode code)[codeLimit - 1]? = some '_'

instance (code : String) : Decidable (CutBehindUnderscore code) :=
  inferInstanceAs (Decidable (_ ∧ _))

/-! ## The characters of a code -/

theorem isCodeChar_of_mem_replaceRuns {pending : Bool}
    (member : char ∈ replaceRuns pending chars) : isCodeChar char = true := by
  induction chars generalizing pending with
  | nil => cases member
  | cons first rest induction =>
      rw [replaceRuns] at member
      split at member
      · rename_i kept
        rcases List.mem_cons.mp member with rfl | member
        · exact kept
        · exact induction member
      · split at member
        · exact induction member
        · rcases List.mem_cons.mp member with rfl | member
          · decide
          · exact induction member

theorem isCodeChar_of_mem_wholeCode (member : char ∈ wholeCode code) : isCodeChar char = true := by
  have inside := Text.mem_of_mem_dropEndWhile member
  exact isCodeChar_of_mem_replaceRuns ((List.dropWhile_sublist _).subset inside)

theorem head?_stripUnderscores (chars : List Char) :
    (stripUnderscores chars).head? ≠ some '_' := by
  intro begins
  exact absurd (Text.not_drop_of_head? begins) (by decide)

theorem getLast?_stripUnderscores (chars : List Char) :
    (stripUnderscores chars).getLast? ≠ some '_' := by
  intro ends
  exact absurd (Text.not_drop_of_getLast? ends) (by decide)

theorem toList_normalizeCode (some : wholeCode code ≠ []) :
    (normalizeCode code).toList = (wholeCode code).take codeLimit := by
  have notEmpty : ¬(wholeCode code).isEmpty = true := by simpa using some
  rw [normalizeCode, ← wholeCode]
  rw [if_neg notEmpty, String.toList_ofList]

theorem normalizeCode_of_nil (empty : wholeCode code = []) : normalizeCode code = defaultCode := by
  rw [normalizeCode, ← wholeCode]
  rw [empty]
  rfl

theorem isCode_normalizeCode (code : String) : IsCode (normalizeCode code) := by
  by_cases empty : wholeCode code = []
  · rw [normalizeCode_of_nil empty]
    exact ⟨by decide, by decide, List.all_eq_true.mp (by decide), by decide⟩
  · have spelled := toList_normalizeCode empty
    refine ⟨?_, ?_, fun char member => ?_, ?_⟩
    · rw [Ne, ← String.toList_eq_nil_iff, spelled, List.take_eq_nil_iff, not_or]
      exact ⟨by decide, empty⟩
    · rw [← String.length_toList, spelled]
      exact List.length_take_le ..
    · exact isCodeChar_of_mem_wholeCode (List.mem_of_mem_take (spelled ▸ member))
    · rw [spelled, List.head?_take, if_neg (by decide)]
      exact head?_stripUnderscores _

theorem getLast?_normalizeCode_iff (code : String) :
    (normalizeCode code).toList.getLast? = some '_' ↔ CutBehindUnderscore code := by
  by_cases long : codeLimit < (wholeCode code).length
  · have some : wholeCode code ≠ [] := List.ne_nil_of_length_pos (Nat.zero_lt_of_lt long)
    have last : codeLimit - 1 < (wholeCode code).length := Nat.lt_of_le_of_lt (Nat.sub_le ..) long
    rw [toList_normalizeCode some, List.getLast?_take, if_neg (by decide), CutBehindUnderscore,
      List.getElem?_eq_getElem last, Option.some_or]
    exact (and_iff_right long).symm
  · refine iff_of_false ?_ fun cut => long cut.1
    by_cases empty : wholeCode code = []
    · rw [normalizeCode_of_nil empty]
      decide
    · rw [toList_normalizeCode empty, List.take_of_length_le (Nat.not_lt.mp long)]
      exact getLast?_stripUnderscores _

/-! ## Recording a code again -/

theorem isAscii_of_isCodeChar (spelled : isCodeChar char = true) : char.toNat < 128 := by
  simp only [isCodeChar, Bool.or_eq_true, Bool.and_eq_true, decide_eq_true_eq, beq_iff_eq]
    at spelled
  rcases spelled with (⟨-, below⟩ | ⟨-, below⟩) | rfl
  · exact Text.isAscii_of_le below (by decide)
  · exact Text.isAscii_of_le below (by decide)
  · decide

theorem solid_of_isCodeChar (spelled : isCodeChar char = true) :
    Text.isBlank char = false ∧ Text.capital char = [char] := by
  have ascii := isAscii_of_isCodeChar spelled
  revert spelled
  refine Text.forall_ascii char ascii ?_
  decide +kernel

theorem flatMap_capital (spelled : ∀ char ∈ chars, isCodeChar char = true) :
    chars.flatMap Text.capital = chars := by
  induction chars with
  | nil => rfl
  | cons first rest induction =>
      have parts := List.forall_mem_cons.mp spelled
      rw [List.flatMap_cons, (solid_of_isCodeChar parts.1).2, induction parts.2]
      rfl

theorem replaceRuns_eq {pending : Bool} (spelled : ∀ char ∈ chars, isCodeChar char = true) :
    replaceRuns pending chars = chars := by
  induction chars generalizing pending with
  | nil => rfl
  | cons first rest induction =>
      have parts := List.forall_mem_cons.mp spelled
      rw [replaceRuns, if_pos parts.1, induction parts.2]

namespace IsCode

theorem exists_cons (isCode : IsCode code) :
    ∃ first rest, code.toList = first :: rest ∧ (first == '_') = false := by
  have begins := isCode.begins
  cases shape : code.toList with
  | nil => exact absurd (String.toList_eq_nil_iff.mp shape) isCode.notEmpty
  | cons first rest =>
      rw [shape] at begins
      exact ⟨first, rest, rfl, by simpa using begins⟩

theorem wholeCode_eq (isCode : IsCode code) :
    wholeCode code = Text.dropEndWhile (· == '_') code.toList := by
  have trimmed := Text.isTrimmed_of_solid isCode.notEmpty fun char member =>
    (solid_of_isCodeChar (isCode.spelled char member)).1
  rcases isCode.exists_cons with ⟨first, rest, shape, notUnderscore⟩
  rw [wholeCode, trimmed.trimmed, Text.capitalize, String.toList_ofList,
    flatMap_capital isCode.spelled, replaceRuns_eq isCode.spelled, stripUnderscores, shape,
    List.dropWhile_cons_of_neg (by simpa using notUnderscore)]

/-- Recorded again, a code loses its underscores at the end and nothing else. -/
theorem toList_normalizeCode (isCode : IsCode code) :
    (normalizeCode code).toList = Text.dropEndWhile (· == '_') code.toList := by
  have whole := isCode.wholeCode_eq
  rcases isCode.exists_cons with ⟨first, rest, shape, notUnderscore⟩
  have ⟨more, kept⟩ : ∃ more, Text.dropEndWhile (· == '_') (first :: rest) = first :: more :=
    Text.dropEndWhile_cons notUnderscore
  have some : wholeCode code ≠ [] := by
    rw [whole, shape, kept]
    exact List.cons_ne_nil _ _
  have within : (wholeCode code).length ≤ codeLimit := by
    rw [whole]
    exact (Text.dropEndWhile_isPrefix _ _).length_le.trans isCode.within
  rw [Failure.toList_normalizeCode some, List.take_of_length_le within, whole]

theorem normalizeCode_eq_iff (isCode : IsCode code) :
    normalizeCode code = code ↔ code.toList.getLast? ≠ some '_' := by
  rw [← String.toList_inj, isCode.toList_normalizeCode]
  constructor
  · intro same ends
    rw [← same] at ends
    exact absurd (Text.not_drop_of_getLast? ends) (by decide)
  · intro ends
    refine List.rdropWhile_eq_self_iff.mpr fun some => ?_
    rw [List.getLast?_eq_some_getLast some] at ends
    simpa using ends

theorem isNormalCode_normalizeCode (isCode : IsCode code) : IsNormalCode (normalizeCode code) where
  toIsCode := isCode_normalizeCode code
  ends := by
    intro ends
    rw [isCode.toList_normalizeCode] at ends
    exact absurd (Text.not_drop_of_getLast? ends) (by decide)

end IsCode

/-! ## Codes that are cut -/

theorem isNormalCode_normalizeCode_iff (code : String) :
    IsNormalCode (normalizeCode code) ↔ ¬CutBehindUnderscore code := by
  rw [← getLast?_normalizeCode_iff]
  exact ⟨IsNormalCode.ends, fun ends => ⟨isCode_normalizeCode code, ends⟩⟩

theorem normalizeCode_normalizeCode_iff (code : String) :
    normalizeCode (normalizeCode code) = normalizeCode code ↔ ¬CutBehindUnderscore code := by
  rw [(isCode_normalizeCode code).normalizeCode_eq_iff, Ne, getLast?_normalizeCode_iff]

/-! ## Errors -/

variable {error : StoreError}

theorem code_ofError (coded : error.code? = some code) :
    (ofError error).code = normalizeCode code := by
  rw [ofError, record, coded, Option.map_some, Option.getD_some]

theorem code_attemptFailed (notEmpty : code ≠ "") (message : String) :
    (IngestionError.attemptFailed code message).code = code := by
  rw [IngestionError.attemptFailed]
  unfold IngestionError.withCode
  split
  · exact absurd (Option.some.inj ‹_›) notEmpty
  · exact (Option.some.inj ‹_›).symm
  · rename_i none
    cases none

def reported (failure : Failure) : Failure :=
  ofError (.ingestion (.attemptFailed failure.code failure.message))

theorem code_reported {failure : Failure} (isCode : IsCode failure.code) :
    failure.reported.code = normalizeCode failure.code :=
  code_ofError (congrArg some (code_attemptFailed isCode.notEmpty failure.message))

theorem code_reported_iff (coded : error.code? = some code) :
    (ofError error).reported.code = (ofError error).code ↔ ¬CutBehindUnderscore code := by
  have recorded := code_ofError coded
  rw [code_reported (recorded ▸ isCode_normalizeCode code), recorded]
  exact normalizeCode_normalizeCode_iff code

/-- Whatever an error has as its code, a code is recorded for it. The record is in normal form, and
reporting the failure leads to the same record, unless the code was cut right behind an underscore;
recording it once more brings any code to normal form. -/
theorem codes_recorded (code : String) :
    IsCode (normalizeCode code) ∧
    (IsNormalCode (normalizeCode code) ↔ ¬CutBehindUnderscore code) ∧
    (normalizeCode (normalizeCode code) = normalizeCode code ↔ ¬CutBehindUnderscore code) ∧
    IsNormalCode (normalizeCode (normalizeCode code)) ∧
    ∀ error : StoreError, error.code? = some code →
      (ofError error).code = normalizeCode code ∧
      ((ofError error).reported.code = (ofError error).code ↔ ¬CutBehindUnderscore code) :=
  ⟨isCode_normalizeCode code, isNormalCode_normalizeCode_iff code,
    normalizeCode_normalizeCode_iff code, (isCode_normalizeCode code).isNormalCode_normalizeCode,
    fun _ coded => ⟨code_ofError coded, code_reported_iff coded⟩⟩

def wordyCode : String := "gro\u00df - oder nicht?"

theorem codes_recorded_wordyCode :
    let error := StoreError.unforeseen (some wordyCode) "no reason given"
    error.code? = some wordyCode ∧ ¬CutBehindUnderscore wordyCode ∧
    (ofError error).code = "GROSS_ODER_NICHT" ∧ IsNormalCode "GROSS_ODER_NICHT" ∧
    (ofError error).reported.code = "GROSS_ODER_NICHT" := by
  intro error
  have uncut : ¬CutBehindUnderscore wordyCode := by decide +kernel
  have spelled : normalizeCode wordyCode = "GROSS_ODER_NICHT" := by decide +kernel
  rcases codes_recorded wordyCode with ⟨-, normal, -, -, errors⟩
  rcases errors error rfl with ⟨recorded, reported⟩
  rw [spelled] at recorded normal
  exact ⟨rfl, uncut, recorded, normal.mpr uncut, (reported.mpr uncut).trans recorded⟩

def cutCode : String := String.ofList (List.replicate 63 'A') ++ " B"

/-- The underscore between the words is the last character that is recorded, and it is gone when the
failure is reported. -/
theorem recorded_cutCode :
    ¬IsNormalCode (normalizeCode cutCode) ∧
    normalizeCode (normalizeCode cutCode) ≠ normalizeCode cutCode ∧
    ∃ error : StoreError, error.code? = some cutCode ∧
      (ofError error).code.toList.getLast? = some '_' ∧
      (ofError error).reported.code ≠ (ofError error).code := by
  have cut : CutBehindUnderscore cutCode := by decide +kernel
  have coded : (StoreError.unforeseen (some cutCode) "no reason given").code? = some cutCode := rfl
  refine ⟨fun normal => ?_, fun same => ?_, _, coded, ?_, fun same => ?_⟩
  · exact (isNormalCode_normalizeCode_iff cutCode).mp normal cut
  · exact (normalizeCode_normalizeCode_iff cutCode).mp same cut
  · rw [code_ofError coded]
    exact (getLast?_normalizeCode_iff cutCode).mpr cut
  · exact (code_reported_iff coded).mp same cut

end WorkspaceGraph.Failure
