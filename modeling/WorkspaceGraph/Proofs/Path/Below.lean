import WorkspaceGraph.Proofs.Path.Within
/-!
Paths spelled out below a workspace. A path that is resolved inside a workspace is the workspace's
root with names behind it, each after one slash, and what it is called in the workspace resolves to
the path again.
-/

namespace WorkspaceGraph.Path

/-- A root that a workspace may have: absolute, in normal form and spelled with single slashes only.
The root of all paths is none. -/
structure IsBase (root : String) : Prop where
  absolute : root.toList.head? = some '/'
  single : ¬['/', '/'] <+: root.toList
  normal : normalize root = root
  forward : '\\' ∉ root.toList
  notTop : root ≠ "/"

instance (root : String) : Decidable (IsBase root) :=
  decidable_of_iff (root.toList.head? = some '/' ∧ ¬['/', '/'] <+: root.toList ∧
      normalize root = root ∧ '\\' ∉ root.toList ∧ root ≠ "/")
    ⟨fun ⟨absolute, single, normal, forward, notTop⟩ =>
        ⟨absolute, single, normal, forward, notTop⟩,
      fun base => ⟨base.absolute, base.single, base.normal, base.forward, base.notTop⟩⟩

def slashed (names : List (List Char)) : List Char := names.flatMap fun name => '/' :: name

def Below (root path : String) : Prop :=
  ∃ names, (∀ name ∈ names, IsName name) ∧ path.toList = root.toList ++ slashed names

def IsRelative (path : String) : Prop :=
  ∃ names, names ≠ [] ∧ (∀ name ∈ names, IsName name) ∧ path.toList = unsplit names

theorem slashed_append (names others : List (List Char)) :
    slashed (names ++ others) = slashed names ++ slashed others := List.flatMap_append

theorem slashed_eq {names : List (List Char)} (notEmpty : names ≠ []) :
    slashed names = '/' :: unsplit names := by
  induction names with
  | nil => exact absurd rfl notEmpty
  | cons first rest induction =>
      cases rest with
      | nil => simp [slashed, unsplit]
      | cons second rest =>
          have further := induction (by simp)
          rw [slashed, List.flatMap_cons, ← slashed, further]
          rfl

/-! ## Roots -/

variable {root path : String} {names rootNames : List (List Char)}

theorem IsBase.rooted (base : IsBase root) :
    ∃ rootNames, rootNames ≠ [] ∧ Rooted root.toList rootNames ∧
      root.toList = slashed rootNames := by
  have same : normalizeChars root.toList = root.toList := by
    have normal := congrArg String.toList base.normal
    rwa [normalize, String.toList_ofList] at normal
  have rooted := normalizeChars_rooted base.absolute
  rw [same] at rooted
  rcases rooted.shape with shape | shape
  · have notEmpty : namesOf root.toList ≠ [] := by
      intro empty
      rw [empty, unsplit] at shape
      exact base.notTop (String.toList_injective shape)
    exact ⟨_, notEmpty, rooted, shape.trans (slashed_eq notEmpty).symm⟩
  · exact absurd ⟨_, shape.symm⟩ base.single

theorem IsBase.absoluteForm_eq (base : IsBase root) : absoluteForm root = root := by
  have ⟨rootNames, notEmpty, rooted, _⟩ := base.rooted
  have unslashed := dropSlashes_of_getLast? (rooted.getLast? notEmpty)
  have some : root.toList ≠ [] := fun empty => by simpa [empty] using base.absolute
  exact Trimmed.absoluteForm_eq (.inr ⟨some, unslashed⟩) base.forward

theorem Rooted.eq_slashed (rooted : Rooted path.toList names)
    (rootRooted : Rooted root.toList rootNames) (notEmpty : rootNames ≠ [])
    (spelled : root.toList = slashed rootNames) (within : isWithin path root = true) :
    ∃ below, names = rootNames ++ below ∧ path.toList = root.toList ++ slashed below := by
  have ⟨below, whole⟩ := rooted.names_of_isWithin rootRooted within
  have front : ∃ rest, path.toList = root.toList ++ rest := by
    have unslashed := dropSlashes_of_getLast? (rootRooted.getLast? notEmpty)
    rcases isWithin_iff.mp within with rfl | ⟨rest, shape⟩
    · exact ⟨[], (List.append_nil _).symm⟩
    · exact ⟨'/' :: rest, by rw [shape, unslashed]⟩
  have single : path.toList = '/' :: unsplit names := by
    rcases rooted.shape with shape | shape
    · exact shape
    · have ⟨rest, continued⟩ := front
      have first := head?_unsplit rootRooted.isName
      rw [slashed_eq notEmpty] at spelled
      rw [shape, spelled, List.cons_append, List.cons_inj_right] at continued
      cases path : unsplit rootNames with
      | nil =>
          have none := components_unsplit rootRooted.isName
          rw [path] at none
          exact absurd none.symm notEmpty
      | cons char more =>
          rw [path, List.cons_append] at continued
          rw [path, ← (List.cons.inj continued).1] at first
          exact absurd rfl first
  refine ⟨below, whole, ?_⟩
  rw [single, spelled, ← slashed_append, ← whole, slashed_eq (by simp [whole, notEmpty])]

/-- What is resolved inside a workspace lies below its root. -/
theorem below_of_isWithin (base : IsBase root) {segment : String}
    (forward : '\\' ∉ segment.toList)
    (within : isWithin (resolve root [segment]) (absoluteForm root) = true) :
    Below root (resolve root [segment]) := by
  have ⟨rootNames, notEmpty, rootRooted, spelled⟩ := base.rooted
  have ⟨names, normal⟩ := resolve_normal base.absolute base.forward forward
  rw [base.absoluteForm_eq] at within
  have ⟨below, whole, path⟩ := normal.eq_slashed rootRooted notEmpty spelled within
  refine ⟨below, fun name member => ?_, path⟩
  exact normal.isName name (whole ▸ List.mem_append_right _ member)

/-! ## Relative paths -/

theorem Normal.resolved (normal : Normal path names) (notEmpty : names ≠ []) :
    absoluteForm (normalize path) = path := by
  have same : normalize path = path := by
    refine String.toList_injective ?_
    rw [normalize, String.toList_ofList, normal.normalizeChars_eq]
  have unslashed := dropSlashes_of_getLast? (normal.getLast? notEmpty)
  have some : path.toList ≠ [] := fun empty => by simpa [empty] using normal.head?
  rw [same]
  exact Trimmed.absoluteForm_eq (.inr ⟨some, unslashed⟩) normal.forward

theorem resolve_unsplit {below : List (List Char)} (normal : Normal path names)
    (isName : ∀ name ∈ below, IsName name) (notEmpty : below ≠ [])
    (rootRooted : Rooted root.toList rootNames) (rootSome : rootNames ≠ [])
    (whole : names = rootNames ++ below)
    (spelled : path.toList = root.toList ++ slashed below) :
    resolve root [String.ofList (unsplit below)] = path := by
  have joined : join root (String.ofList (unsplit below)) = path := by
    refine String.toList_injective ?_
    have relative := head?_unsplit isName
    have last := rootRooted.getLast? rootSome
    have some : root.toList ≠ [] := fun empty => by simpa [empty] using rootRooted.head?
    rw [join, String.toList_ofList, String.toList_ofList, joinChars,
      if_neg (by simpa using relative), if_neg (by simp [some, last]), spelled,
      slashed_eq notEmpty]
  rw [resolve, List.foldl_cons, List.foldl_nil, joined]
  exact normal.resolved (by simp [whole, notEmpty])

end WorkspaceGraph.Path
