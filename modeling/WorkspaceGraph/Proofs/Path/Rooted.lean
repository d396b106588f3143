import WorkspaceGraph.Proofs.Path.Components
import WorkspaceGraph.Proofs.Text.Blank
/-!
Absolute paths in normal form. Such a path is a root and the names that lead from it. Normalizing
an absolute path brings it into this form, and every operation that starts from such paths can be
told by what it does to the names.
-/

namespace WorkspaceGraph.Path

/-- The path leads from a root along the names. Some systems tell two slashes at the front from one,
so there are two roots. -/
structure Rooted (chars : List Char) (names : List (List Char)) : Prop where
  isName : ∀ name ∈ names, IsName name
  shape : chars = '/' :: unsplit names ∨ chars = '/' :: '/' :: unsplit names

/-! ## Slashes at the ends -/

theorem dropSlashes_of_getLast? {chars : List Char} (last : chars.getLast? ≠ some '/') :
    dropSlashes chars = chars := by
  rw [List.getLast?_eq_head?_reverse] at last
  rw [dropSlashes, Text.dropEndWhile]
  cases reversed : chars.reverse with
  | nil => simpa using reversed.symm
  | cons char before =>
      have notSlash : char ≠ '/' := by simpa [reversed] using last
      rw [List.dropWhile_cons_of_neg (by simpa using notSlash), ← reversed, List.reverse_reverse]

theorem head?_unsplit {names : List (List Char)} (isName : ∀ name ∈ names, IsName name) :
    (unsplit names).head? ≠ some '/' := by
  cases names with
  | nil => simp [unsplit]
  | cons first rest =>
      have name := isName first (List.mem_cons_self ..)
      cases first with
      | nil => exact absurd rfl name.notEmpty
      | cons char more =>
          have notSlash : char ≠ '/' := fun same => name.noSlash (by simp [same])
          cases rest <;> simp [unsplit, notSlash]

theorem getLast?_unsplit_concat (front : List (List Char)) {last : List Char} (notEmpty : last ≠ [])
    (noSlash : '/' ∉ last) : (unsplit (front ++ [last])).getLast? ≠ some '/' := by
  obtain ⟨before, path⟩ := unsplit_eq_append front last
  rw [path, List.getLast?_append, List.getLast?_eq_some_getLast notEmpty]
  intro ends
  exact noSlash (Option.some.inj ends ▸ List.getLast_mem notEmpty)

theorem getLast?_unsplit {names : List (List Char)} (isName : ∀ name ∈ names, IsName name) :
    (unsplit names).getLast? ≠ some '/' := by
  rcases List.eq_nil_or_concat' names with rfl | ⟨before, last, rfl⟩
  · simp [unsplit]
  · have name := isName last (by simp)
    exact getLast?_unsplit_concat before name.notEmpty name.noSlash

theorem forwardSlashes_eq {chars : List Char} (forward : '\\' ∉ chars) :
    forwardSlashes chars = chars := by
  have same : ∀ char ∈ chars, (if char == '\\' then '/' else char) = char := by
    intro char member
    have different : char ≠ '\\' := fun same => forward (same ▸ member)
    simp [different]
  rw [forwardSlashes, List.map_congr_left same, List.map_id']

/-! ## Normalizing -/

theorem resolveDots_filter (rooted : Bool) (kept parts : List (List Char)) :
    resolveDots rooted kept (parts.filter (!·.isEmpty)) = resolveDots rooted kept parts := by
  induction parts generalizing kept with
  | nil => rfl
  | cons part rest induction =>
      cases part with
      | nil => simpa [resolveDots] using induction kept
      | cons char more =>
          rw [List.filter_cons_of_pos (by simp)]
          unfold resolveDots
          simp only [induction]

def namesOf (chars : List Char) : List (List Char) := resolveDots true [] (split chars)

theorem isName_of_mem_namesOf {chars name : List Char} (member : name ∈ namesOf chars) :
    IsName name ∧ ∀ char ∈ name, char ∈ chars := by
  have found := isName_of_mem_resolveDots member (by simp) fun part inside =>
    (mem_of_mem_split inside).1
  refine ⟨found.1, fun char inside => ?_⟩
  have part := found.2.resolve_left (by simp)
  exact (mem_of_mem_split part).2 char inside

theorem rootSlashes_of_head? {chars : List Char} (absolute : chars.head? = some '/') :
    rootSlashes chars = ['/'] ∨ rootSlashes chars = ['/', '/'] := by
  unfold rootSlashes
  split
  · exact .inl rfl
  · exact .inr rfl
  · exact .inl rfl
  · rename_i other
    cases chars with
    | nil => cases absolute
    | cons char rest => exact absurd (by simpa using absolute) fun same => other rest (by rw [same])

theorem normalizeChars_of_head? {chars : List Char} (absolute : chars.head? = some '/') :
    normalizeChars chars = rootSlashes chars ++ unsplit (namesOf chars) := by
  rcases rootSlashes_of_head? absolute with root | root <;> simp [normalizeChars, root, namesOf]

theorem normalizeChars_rooted {chars : List Char} (absolute : chars.head? = some '/') :
    Rooted (normalizeChars chars) (namesOf chars) := by
  refine ⟨fun name member => (isName_of_mem_namesOf member).1, ?_⟩
  rw [normalizeChars_of_head? absolute]
  rcases rootSlashes_of_head? absolute with root | root
  · exact .inl (by rw [root]; rfl)
  · exact .inr (by rw [root]; rfl)

theorem mem_normalizeChars {chars : List Char} (absolute : chars.head? = some '/') {char : Char}
    (member : char ∈ normalizeChars chars) : char = '/' ∨ char ∈ chars := by
  have inside : char = '/' ∨ char ∈ unsplit (namesOf chars) := by
    rcases (normalizeChars_rooted absolute).shape with shape | shape
    · simpa [shape] using member
    · simpa [shape] using member
  rcases inside with same | inside
  · exact .inl same
  · rcases mem_unsplit inside with same | ⟨name, member, inside⟩
    · exact .inl same
    · exact .inr ((isName_of_mem_namesOf member).2 char inside)

namespace Rooted

variable {chars : List Char} {names : List (List Char)}

theorem components_eq (rooted : Rooted chars names) : components chars = names := by
  have empty : components [] = [] := rfl
  have plain := components_unsplit rooted.isName
  have slash : components ('/' :: unsplit names) = names := by
    have halves := components_append_slash [] (unsplit names)
    rwa [plain] at halves
  rcases rooted.shape with shape | shape
  · rw [shape, slash]
  · have halves := components_append_slash [] ('/' :: unsplit names)
    rw [slash] at halves
    rw [shape]
    exact halves

theorem mem_of_mem (rooted : Rooted chars names) {name : List Char} (member : name ∈ names)
    {char : Char} (inside : char ∈ name) : char ∈ chars := by
  rw [← rooted.components_eq] at member
  exact (mem_of_mem_split (List.mem_filter.mp member).1).2 char inside

theorem namesOf_eq (rooted : Rooted chars names) : namesOf chars = names := by
  have parts := rooted.components_eq
  rw [components] at parts
  rw [namesOf, ← resolveDots_filter, parts, resolveDots_names true [] rooted.isName]
  rfl

theorem head? (rooted : Rooted chars names) : chars.head? = some '/' := by
  rcases rooted.shape with shape | shape <;> rw [shape] <;> rfl

theorem rootSlashes_append (rooted : Rooted chars names) :
    rootSlashes chars ++ unsplit names = chars := by
  have first := head?_unsplit rooted.isName
  cases path : unsplit names with
  | nil => rcases rooted.shape with shape | shape <;> simp [shape, path, rootSlashes]
  | cons char rest =>
      have notSlash : char ≠ '/' := by simpa [path] using first
      rcases rooted.shape with shape | shape <;> simp [shape, path, rootSlashes, notSlash]

theorem normalizeChars_eq (rooted : Rooted chars names) : normalizeChars chars = chars := by
  rw [normalizeChars_of_head? rooted.head?, rooted.namesOf_eq, rooted.rootSlashes_append]

theorem parts_eq {path : String} (rooted : Rooted path.toList names) : parts path = names := by
  rw [parts, rooted.normalizeChars_eq]
  exact rooted.components_eq

theorem getLast? (rooted : Rooted chars names) (notEmpty : names ≠ []) :
    chars.getLast? ≠ some '/' := by
  have unslashed := getLast?_unsplit rooted.isName
  have some : unsplit names ≠ [] := by
    intro none
    have empty := components_unsplit rooted.isName
    rw [none] at empty
    exact notEmpty empty.symm
  rcases rooted.shape with shape | shape
  · rwa [shape, List.getLast?_cons_of_ne_nil some]
  · rwa [shape, List.getLast?_cons_of_ne_nil (by simp), List.getLast?_cons_of_ne_nil some]

theorem absoluteFormChars (rooted : Rooted chars names) (forward : '\\' ∉ chars) :
    Rooted (absoluteFormChars chars) names := by
  rw [Path.absoluteFormChars, forwardSlashes_eq forward]
  cases names with
  | nil =>
      refine ⟨by simp, .inl ?_⟩
      rcases rooted.shape with shape | shape <;> rw [shape] <;> rfl
  | cons first rest =>
      rw [dropSlashes_of_getLast? (rooted.getLast? (by simp))]
      cases chars with
      | nil => cases rooted.head?
      | cons char more => exact rooted

theorem joinChars (rooted : Rooted chars names) {name : List Char} (isName : IsName name) :
    Rooted (joinChars chars name) (names ++ [name]) := by
  have all : ∀ other ∈ names ++ [name], IsName other :=
    List.forall_mem_append.mpr ⟨rooted.isName, List.forall_mem_singleton.mpr isName⟩
  have relative : name.head? ≠ some '/' := fun first => isName.noSlash (List.mem_of_head? first)
  refine ⟨all, ?_⟩
  rw [Path.joinChars, if_neg (by simpa using relative)]
  cases names with
  | nil => rcases rooted.shape with shape | shape <;> simp [shape, unsplit]
  | cons first rest =>
      have last := rooted.getLast? (by simp)
      have notEmpty : chars ≠ [] := fun empty => by simpa [empty] using rooted.head?
      rw [if_neg (by simp [notEmpty, last]), unsplit_append (by simp)]
      rcases rooted.shape with shape | shape <;> simp [shape]

theorem notEmpty {path : String} (rooted : Rooted path.toList names) : path.isEmpty = false := by
  rw [← Bool.not_eq_true, String.isEmpty_iff]
  rintro rfl
  cases rooted.head?

end Rooted

/-! ## Resolving -/

theorem mem_joinChars {base segment : List Char} {char : Char}
    (member : char ∈ joinChars base segment) : char ∈ base ∨ char = '/' ∨ char ∈ segment := by
  unfold joinChars at member
  split at member
  · exact .inr (.inr member)
  · split at member
    · exact (List.mem_append.mp member).imp_right .inr
    · simpa using member

theorem head?_joinChars {base : List Char} (segment : List Char)
    (absolute : base.head? = some '/') :
    (joinChars base segment).head? = some '/' := by
  unfold joinChars
  split
  · exact beq_iff_eq.mp ‹_›
  · split <;> simp [absolute]

theorem not_mem_forwardSlashes (chars : List Char) : '\\' ∉ forwardSlashes chars := by
  intro member
  rcases List.mem_map.mp member with ⟨char, -, same⟩
  by_cases escaped : char = '\\' <;> simp [escaped] at same

theorem mem_of_mem_dropSlashes {chars : List Char} {char : Char}
    (member : char ∈ dropSlashes chars) : char ∈ chars :=
  Text.mem_of_mem_dropEndWhile member

theorem not_mem_absoluteFormChars (chars : List Char) : '\\' ∉ absoluteFormChars chars := by
  unfold absoluteFormChars
  split
  · simp
  · exact fun member => not_mem_forwardSlashes chars (mem_of_mem_dropSlashes member)

/-- The absolute path of anything is in normal form. -/
theorem absolute_rooted {directory : String} (path : String)
    (absolute : directory.toList.head? = some '/') :
    ∃ names, Rooted (Path.absolute directory path).toList names := by
  have head : (if path.toList.head? == some '/' then path
      else join directory path).toList.head? = some '/' := by
    split
    · exact beq_iff_eq.mp ‹_›
    · simpa [join] using head?_joinChars path.toList absolute
  exact ⟨_, by simpa [Path.absolute, normalize] using normalizeChars_rooted head⟩

/-! ## Slashes only -/

structure IsPlainName (name : String) : Prop extends IsName name.toList where
  forward : '\\' ∉ name.toList

instance (name : String) : Decidable (IsPlainName name) :=
  decidable_of_iff (IsName name.toList ∧ '\\' ∉ name.toList)
    ⟨fun ⟨isName, forward⟩ => ⟨isName, forward⟩, fun plain => ⟨plain.toIsName, plain.forward⟩⟩

structure Normal (path : String) (names : List (List Char)) : Prop extends
    Rooted path.toList names where
  forward : '\\' ∉ path.toList

theorem Normal.join {path name : String} {names : List (List Char)} (normal : Normal path names)
    (plain : IsPlainName name) : Normal (join path name) (names ++ [name.toList]) where
  toRooted := by simpa [Path.join] using normal.joinChars plain.toIsName
  forward := by
    intro member
    rw [Path.join, String.toList_ofList] at member
    rcases mem_joinChars member with member | same | member
    · exact normal.forward member
    · cases same
    · exact plain.forward member

theorem not_mem_normalizeChars_joinChars {base segment : List Char}
    (absolute : base.head? = some '/') (forward : '\\' ∉ base) (segmentForward : '\\' ∉ segment) :
    '\\' ∉ normalizeChars (joinChars base segment) := by
  intro member
  rcases mem_normalizeChars (head?_joinChars segment absolute) member with same | member
  · cases same
  · rcases mem_joinChars member with member | same | member
    · exact forward member
    · cases same
    · exact segmentForward member

/-- What is resolved against an absolute path is in normal form, with the names that it leads along
from there. -/
theorem normal_resolve {base segment : String} (absolute : base.toList.head? = some '/')
    (forward : '\\' ∉ base.toList) (segmentForward : '\\' ∉ segment.toList) :
    Normal (resolve base [segment]) (namesOf (joinChars base.toList segment.toList)) := by
  have joined := head?_joinChars segment.toList absolute
  have unchanged := not_mem_normalizeChars_joinChars absolute forward segmentForward
  have rooted := (normalizeChars_rooted joined).absoluteFormChars unchanged
  refine ⟨by simpa [resolve, absoluteForm, normalize, join] using rooted, ?_⟩
  simpa [resolve, absoluteForm] using not_mem_absoluteFormChars _

theorem resolve_normal {base segment : String} (absolute : base.toList.head? = some '/')
    (forward : '\\' ∉ base.toList) (segmentForward : '\\' ∉ segment.toList) :
    ∃ names, Normal (resolve base [segment]) names :=
  ⟨_, normal_resolve absolute forward segmentForward⟩

end WorkspaceGraph.Path
