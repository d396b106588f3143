import WorkspaceGraph.Proofs.Path.Rooted
/-!
Paths below other paths. What lies within a path is told by its characters, and leads along the
names of the path first; the names that are left are its relative path.
-/

namespace WorkspaceGraph.Path

/-! ## Containment -/

theorem isWithin_iff {path root : String} : isWithin path root = true ↔
    path = root ∨ ∃ rest, path.toList = dropSlashes root.toList ++ '/' :: rest := by
  rw [isWithin, Bool.or_eq_true, beq_iff_eq, List.isPrefixOf_iff_prefix]
  refine or_congr_right ⟨?_, ?_⟩
  · rintro ⟨rest, whole⟩
    exact ⟨rest, by simp [← whole]⟩
  · rintro ⟨rest, whole⟩
    exact ⟨rest, by simp [whole]⟩

theorem dropSlashes_append (front back : List Char) :
    dropSlashes (front ++ '/' :: back) =
      if dropSlashes back = [] then dropSlashes front else front ++ '/' :: dropSlashes back := by
  have emptiness : dropSlashes back = [] ↔ (back.reverse.dropWhile (· == '/')).isEmpty = true := by
    rw [dropSlashes, Text.dropEndWhile, List.reverse_eq_nil_iff, List.isEmpty_iff]
  simp only [emptiness]
  rw [dropSlashes, Text.dropEndWhile, List.reverse_append, List.reverse_cons, List.append_assoc,
    List.dropWhile_append]
  split
  · simp [dropSlashes, Text.dropEndWhile]
  · simp [dropSlashes, Text.dropEndWhile]

theorem getLast?_dropSlashes (chars : List Char) : (dropSlashes chars).getLast? ≠ some '/' := by
  intro ends
  exact absurd (Text.not_drop_of_getLast? ends) (by decide)

theorem dropSlashes_dropSlashes (chars : List Char) :
    dropSlashes (dropSlashes chars) = dropSlashes chars :=
  dropSlashes_of_getLast? (getLast?_dropSlashes chars)

theorem isWithin_refl (path : String) : isWithin path path = true := isWithin_iff.mpr (.inl rfl)

theorem isWithin_trans {path middle root : String} (inner : isWithin path middle = true)
    (outer : isWithin middle root = true) : isWithin path root = true := by
  rcases isWithin_iff.mp inner with rfl | ⟨rest, shape⟩
  · exact outer
  rcases isWithin_iff.mp outer with rfl | ⟨more, middleShape⟩
  · exact inner
  · rw [middleShape, dropSlashes_append] at shape
    refine isWithin_iff.mpr (.inr ?_)
    split at shape
    · exact ⟨rest, by rwa [dropSlashes_dropSlashes] at shape⟩
    · exact ⟨dropSlashes more ++ '/' :: rest, by simpa using shape⟩

def Trimmed (path : String) : Prop :=
  path.toList = ['/'] ∨ path.toList ≠ [] ∧ dropSlashes path.toList = path.toList

theorem trimmed_absoluteForm (path : String) : Trimmed (absoluteForm path) := by
  rw [Trimmed, absoluteForm, String.toList_ofList]
  unfold absoluteFormChars
  split
  · exact .inl rfl
  · rename_i some
    exact .inr ⟨some, dropSlashes_dropSlashes _⟩

theorem Trimmed.isWithin_of_dropSlashes {inner outer : String} (trimmed : Trimmed inner)
    {rest : List Char}
    (shape : dropSlashes inner.toList = dropSlashes outer.toList ++ '/' :: rest) :
    isWithin inner outer = true := by
  rcases trimmed with root | ⟨_, same⟩
  · rw [root] at shape
    cases List.append_eq_nil_iff.mp shape.symm |>.2
  · exact isWithin_iff.mpr (.inr ⟨rest, same ▸ shape⟩)

theorem Trimmed.eq_of_dropSlashes {left right : String} (leftTrimmed : Trimmed left)
    (rightTrimmed : Trimmed right) (same : dropSlashes left.toList = dropSlashes right.toList) :
    left = right := by
  refine String.toList_injective ?_
  rcases leftTrimmed with leftRoot | ⟨leftSome, leftSame⟩
  · rcases rightTrimmed with rightRoot | ⟨rightSome, rightSame⟩
    · rw [leftRoot, rightRoot]
    · rw [leftRoot, rightSame] at same
      exact absurd same.symm rightSome
  · rcases rightTrimmed with rightRoot | ⟨rightSome, rightSame⟩
    · rw [rightRoot, leftSame] at same
      exact absurd same leftSome
    · rw [← leftSame, same, rightSame]

theorem Trimmed.isEmpty_of_isWithin {path root : String} (trimmed : Trimmed root)
    (within : isWithin path root = true) : path.isEmpty = false := by
  rw [← Bool.not_eq_true, String.isEmpty_iff]
  intro empty
  rw [empty] at within
  rcases isWithin_iff.mp within with same | ⟨rest, shape⟩
  · rw [Trimmed, ← same] at trimmed
    rcases trimmed with root | ⟨some, _⟩
    · cases root
    · exact some rfl
  · simp at shape

/-- Of two roots around one path, one is around the other. -/
theorem isWithin_or_isWithin {path left right : String} (leftTrimmed : Trimmed left)
    (rightTrimmed : Trimmed right) (inLeft : isWithin path left = true)
    (inRight : isWithin path right = true) :
    isWithin left right = true ∨ isWithin right left = true := by
  rcases isWithin_iff.mp inLeft with rfl | ⟨leftRest, leftShape⟩
  · exact .inl inRight
  rcases isWithin_iff.mp inRight with rfl | ⟨rightRest, rightShape⟩
  · exact .inr inLeft
  rcases List.append_eq_append_iff.mp (leftShape.symm.trans rightShape) with
    ⟨between, whole, rest⟩ | ⟨between, whole, rest⟩
  · cases between with
    | nil =>
        rw [List.append_nil] at whole
        exact .inl (leftTrimmed.eq_of_dropSlashes rightTrimmed whole.symm ▸ isWithin_refl _)
    | cons char more =>
        cases (List.cons.inj rest).1
        exact .inr (rightTrimmed.isWithin_of_dropSlashes whole)
  · cases between with
    | nil =>
        rw [List.append_nil] at whole
        exact .inl (leftTrimmed.eq_of_dropSlashes rightTrimmed whole ▸ isWithin_refl _)
    | cons char more =>
        cases (List.cons.inj rest).1
        exact .inl (leftTrimmed.isWithin_of_dropSlashes whole)

theorem length_lt_of_isWithin {inner outer : String} (outerTrimmed : Trimmed outer)
    (within : isWithin inner outer = true) (notAround : isWithin outer inner = false) :
    outer.length < inner.length := by
  rcases isWithin_iff.mp within with rfl | ⟨rest, shape⟩
  · rw [isWithin_refl] at notAround
    cases notAround
  rw [← String.length_toList, ← String.length_toList, shape]
  rcases outerTrimmed with root | ⟨_, same⟩
  · cases rest with
    | nil =>
        have equal : outer = inner := by
          refine String.toList_injective ?_
          rw [shape, root]
          rfl
        rw [equal, isWithin_refl] at notAround
        cases notAround
    | cons char more =>
        rw [root]
        simp [dropSlashes, Text.dropEndWhile]
  · rw [same]
    simp

theorem Trimmed.join {path name : String} (trimmed : Trimmed path) (isName : IsName name.toList) :
    isWithin (join path name) path = true ∧ Trimmed (join path name) := by
  have relative : ¬(name.toList.head? == some '/') = true := fun first =>
    isName.noSlash (List.mem_of_head? (beq_iff_eq.mp first))
  have last : ∀ front, (front ++ '/' :: name.toList).getLast? ≠ some '/' := by
    intro front ends
    rw [List.getLast?_append, List.getLast?_cons_of_ne_nil isName.notEmpty,
      List.getLast?_eq_some_getLast isName.notEmpty] at ends
    exact isName.noSlash (Option.some.inj ends ▸ List.getLast_mem isName.notEmpty)
  have shape : (Path.join path name).toList = dropSlashes path.toList ++ '/' :: name.toList := by
    rw [Path.join, String.toList_ofList, joinChars, if_neg relative]
    rcases trimmed with root | ⟨some, same⟩
    · rw [root]
      rfl
    · have notSlash := getLast?_dropSlashes path.toList
      rw [same] at notSlash
      rw [if_neg (by simp [some, notSlash]), same]
  refine ⟨isWithin_iff.mpr (.inr ⟨_, shape⟩), .inr ⟨by simp [shape], ?_⟩⟩
  rw [shape]
  exact dropSlashes_of_getLast? (last _)

theorem absoluteForm_eq_of_dropSlashes {path other : String}
    (same : dropSlashes (forwardSlashes path.toList) = dropSlashes (forwardSlashes other.toList)) :
    absoluteForm path = absoluteForm other := by
  rw [absoluteForm, absoluteForm, absoluteFormChars, absoluteFormChars, same]

theorem Trimmed.absoluteForm_eq {path : String} (trimmed : Trimmed path)
    (forward : '\\' ∉ path.toList) : absoluteForm path = path := by
  refine (trimmed_absoluteForm path).eq_of_dropSlashes trimmed ?_
  rw [absoluteForm, String.toList_ofList, absoluteFormChars, forwardSlashes_eq forward]
  split
  · rename_i root
    rw [root]
    rfl
  · exact dropSlashes_dropSlashes _

/-- A path stays within a root when it is brought to absolute form, if the root has that form. -/
theorem isWithin_absoluteForm {path root : String} (trimmed : Trimmed root)
    (forward : '\\' ∉ root.toList) (within : isWithin path root = true) :
    isWithin (absoluteForm path) root = true := by
  rcases isWithin_iff.mp within with rfl | ⟨rest, shape⟩
  · rw [trimmed.absoluteForm_eq forward]
    exact isWithin_refl path
  have dropped : '\\' ∉ dropSlashes root.toList := fun member =>
    forward (mem_of_mem_dropSlashes member)
  have whole : forwardSlashes path.toList =
      dropSlashes root.toList ++ '/' :: forwardSlashes rest := by
    have front := forwardSlashes_eq dropped
    rw [forwardSlashes] at front
    rw [shape, forwardSlashes, List.map_append, List.map_cons, front]
    rfl
  by_cases blank : dropSlashes (forwardSlashes rest) = []
  · have same : absoluteForm path = absoluteForm root := by
      refine absoluteForm_eq_of_dropSlashes ?_
      rw [whole, dropSlashes_append, if_pos blank, dropSlashes_dropSlashes, forwardSlashes_eq forward]
    rw [same, trimmed.absoluteForm_eq forward]
    exact isWithin_refl root
  · refine isWithin_iff.mpr (.inr ⟨dropSlashes (forwardSlashes rest), ?_⟩)
    rw [absoluteForm, String.toList_ofList, absoluteFormChars, whole, dropSlashes_append,
      if_neg blank]
    split
    · rename_i empty
      simp at empty
    · rfl

theorem Rooted.names_of_isWithin {path root : String} {names rootNames : List (List Char)}
    (rooted : Rooted path.toList names) (rootRooted : Rooted root.toList rootNames)
    (within : isWithin path root = true) : ∃ below, names = rootNames ++ below := by
  rcases isWithin_iff.mp within with rfl | ⟨rest, shape⟩
  · exact ⟨[], by rw [← rooted.components_eq, rootRooted.components_eq, List.append_nil]⟩
  · cases rootNames with
    | nil => exact ⟨names, rfl⟩
    | cons first more =>
        rw [dropSlashes_of_getLast? (rootRooted.getLast? (by simp))] at shape
        refine ⟨components rest, ?_⟩
        rw [← rooted.components_eq, shape, components_append_slash, rootRooted.components_eq]

/-! ## Relative paths -/

theorem stepsBetween_append (names below : List (List Char)) :
    stepsBetween names (names ++ below) = below := by
  induction names with
  | nil => cases below <;> rfl
  | cons name rest induction => simpa [stepsBetween] using induction

theorem dropDotSlash_unsplit {names : List (List Char)} (isName : ∀ name ∈ names, IsName name) :
    dropDotSlash (unsplit names) = unsplit names := by
  unfold dropDotSlash
  split
  · rename_i rest shape
    have halves := components_append_slash ['.'] rest
    rw [List.singleton_append, ← shape, components_unsplit isName] at halves
    have here : ['.'] ∈ names := by
      rw [halves]
      exact List.mem_append_left _ (by decide)
    exact absurd rfl (isName _ here).notHere
  · rfl

theorem dropFinalSlash_eq {chars : List Char} (last : chars.getLast? ≠ some '/')
    (blank : ∀ front, chars ≠ front ++ ['/', '\n']) : dropFinalSlash chars = chars := by
  have ends : ∀ before, chars.reverse ≠ '/' :: before := by
    intro before shape
    rw [List.getLast?_eq_head?_reverse, shape] at last
    exact last rfl
  have blankEnds : ∀ before, chars.reverse ≠ '\n' :: '/' :: before := by
    intro before shape
    refine blank before.reverse ?_
    simpa using congrArg List.reverse shape
  unfold dropFinalSlash splitFinalNewline
  split
  rename_i body tail shape
  split at shape
  · rename_i before newline
    cases shape
    split
    · rename_i more slash
      rw [List.reverse_reverse] at slash
      exact absurd (newline.trans (by rw [slash])) (blankEnds more)
    · rfl
  · cases shape
    split
    · exact absurd ‹_› (ends _)
    · rfl

theorem relativeFormChars_unsplit {names : List (List Char)}
    (isName : ∀ name ∈ names, IsName name) (forward : ∀ name ∈ names, '\\' ∉ name)
    (notEmpty : names ≠ []) (notBlank : names.getLast? ≠ some ['\n']) :
    relativeFormChars (unsplit names) = unsplit names := by
  have unslashed : '\\' ∉ unsplit names := by
    intro member
    rcases mem_unsplit member with same | ⟨name, inside, member⟩
    · cases same
    · exact forward name inside member
  have blank : ∀ front, unsplit names ≠ front ++ ['/', '\n'] := by
    intro front shape
    have halves := components_append_slash front ['\n']
    have last : components ['\n'] = [['\n']] := by decide
    rw [← shape, components_unsplit isName, last] at halves
    simp [halves] at notBlank
  rw [relativeFormChars, forwardSlashes_eq unslashed, dropDotSlash_unsplit isName,
    dropFinalSlash_eq (getLast?_unsplit isName) blank]
  split
  · rename_i empty
    have none := components_unsplit isName
    rw [empty] at none
    exact absurd none.symm notEmpty
  · rfl

theorem mem_of_mem_dropFinalSlash {chars : List Char} {char : Char}
    (member : char ∈ dropFinalSlash chars) : char ∈ chars := by
  have whole : (splitFinalNewline chars).1 ++ (splitFinalNewline chars).2 = chars := by
    unfold splitFinalNewline
    split
    · rename_i before shape
      simpa using (congrArg List.reverse shape).symm
    · exact List.append_nil chars
  unfold dropFinalSlash at member
  generalize splitFinalNewline chars = halves at whole member
  rcases halves with ⟨body, tail⟩
  dsimp only at whole member
  split at member
  · rename_i before shape
    have body_eq : body = before.reverse ++ ['/'] := by simpa using congrArg List.reverse shape
    rw [← whole, body_eq]
    simp only [List.mem_append] at member ⊢
    exact member.imp_left .inl
  · exact member

theorem not_mem_relativeForm (path : String) : '\\' ∉ (relativeForm path).toList := by
  rw [relativeForm, String.toList_ofList]
  intro member
  unfold relativeFormChars at member
  split at member
  · simp at member
  · refine not_mem_forwardSlashes path.toList ?_
    have inside := mem_of_mem_dropFinalSlash member
    unfold dropDotSlash at inside
    split at inside
    · rename_i shape
      rw [shape]
      exact List.mem_cons_of_mem _ (List.mem_cons_of_mem _ inside)
    · exact inside

/-- What lies below a root has the names that lead there as its relative path. -/
theorem Normal.relativeTo_eq {root path : String} {names below : List (List Char)}
    (rooted : Rooted root.toList names) (normal : Normal path (names ++ below))
    (notEmpty : below ≠ []) (notBlank : below.getLast? ≠ some ['\n']) :
    relativeTo root path = some (String.ofList (unsplit below)) := by
  have isName : ∀ name ∈ below, IsName name := fun name member =>
    normal.isName name (List.mem_append_right _ member)
  have forward : ∀ name ∈ below, '\\' ∉ name := fun name member inside =>
    normal.forward (normal.mem_of_mem (List.mem_append_right _ member) inside)
  have found : steps root path = String.ofList (unsplit below) := by
    rw [steps, rooted.parts_eq, normal.parts_eq, stepsBetween_append]
    cases below with
    | nil => exact absurd rfl notEmpty
    | cons first rest => rfl
  rw [relativeTo, normal.notEmpty, found, relativeForm, String.toList_ofList,
    relativeFormChars_unsplit isName forward notEmpty notBlank]
  rfl

end WorkspaceGraph.Path
