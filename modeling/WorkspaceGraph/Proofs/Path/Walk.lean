import WorkspaceGraph.Proofs.Path.Within
/-!
Relative paths as walks. The parts of a relative path are followed one by one from a directory, and
what the path resolves to is where the walk ends, in whichever way it is spelled.
-/

namespace WorkspaceGraph.Path

/-- A walk from a directory along parts of a path. Above the top directory is the top itself. -/
inductive Walk : List (List Char) → List (List Char) → List (List Char) → Prop
  | arrive (here : List (List Char)) : Walk here [] here
  | stay {here rest there : List (List Char)} {part : List Char}
      (still : part = [] ∨ part = ['.']) (onward : Walk here rest there) :
      Walk here (part :: rest) there
  | up {here rest there : List (List Char)} (onward : Walk here.dropLast rest there) :
      Walk here (['.', '.'] :: rest) there
  | down {here rest there : List (List Char)} {name : List Char} (isName : IsName name)
      (onward : Walk (here ++ [name]) rest there) : Walk here (name :: rest) there

variable {here there parts rest names : List (List Char)}

/-! ## Resolving dots -/

theorem resolveDots_still {part : List Char} (still : part = [] ∨ part = ['.'])
    (kept : List (List Char)) :
    resolveDots true kept (part :: rest) = resolveDots true kept rest := by
  rcases still with rfl | rfl <;> simp [resolveDots]

theorem resolveDots_up (isName : ∀ name ∈ here, IsName name) :
    resolveDots true here.reverse (['.', '.'] :: rest) =
      resolveDots true here.dropLast.reverse rest := by
  rw [← List.tail_reverse]
  cases reversed : here.reverse with
  | nil => simp [resolveDots]
  | cons last before =>
      have name := isName last (by rw [← List.mem_reverse, reversed]; exact List.mem_cons_self ..)
      simp [resolveDots, name.notAbove]

theorem resolveDots_down {name : List Char} (isName : IsName name) :
    resolveDots true here.reverse (name :: rest) =
      resolveDots true (here ++ [name]).reverse rest := by
  simp [resolveDots, isName.notEmpty, isName.notHere, isName.notAbove]

theorem resolveDots_append {rooted : Bool} (kept : List (List Char))
    (isName : ∀ name ∈ names, IsName name) :
    resolveDots rooted kept (names ++ rest) = resolveDots rooted (names.reverse ++ kept) rest := by
  induction names generalizing kept with
  | nil => rfl
  | cons name more induction =>
      have parts := List.forall_mem_cons.mp isName
      simp [resolveDots, parts.1.notEmpty, parts.1.notHere, parts.1.notAbove,
        induction (name :: kept) parts.2]

theorem Walk.resolveDots_eq (walk : Walk here parts there)
    (isName : ∀ name ∈ here, IsName name) : resolveDots true here.reverse parts = there := by
  induction walk with
  | arrive here => exact List.reverse_reverse here
  | stay still onward induction => exact (resolveDots_still still _).trans (induction isName)
  | up onward induction =>
      rw [resolveDots_up isName]
      exact induction fun name member => isName name (List.dropLast_subset _ member)
  | down name onward induction =>
      rw [resolveDots_down name]
      exact induction
        (List.forall_mem_append.mpr ⟨isName, List.forall_mem_singleton.mpr name⟩)

/-- Going up at least as often as the directory is deep leads to the top. -/
theorem Walk.to_top (dots : ∀ part ∈ parts, part = [] ∨ part = ['.'] ∨ part = ['.', '.'])
    (enough : here.length ≤ parts.count ['.', '.']) : Walk here parts [] := by
  induction parts generalizing here with
  | nil =>
      have top : here = [] := List.length_eq_zero_iff.mp (Nat.le_zero.mp enough)
      rw [top]
      exact .arrive []
  | cons part rest induction =>
      have parts := List.forall_mem_cons.mp dots
      rcases parts.1 with rfl | rfl | rfl
      · exact .stay (.inl rfl) (induction parts.2 (by simpa using enough))
      · exact .stay (.inr rfl) (induction parts.2 (by simpa using enough))
      · refine .up (induction parts.2 ?_)
        rw [List.count_cons_self] at enough
        rw [List.length_dropLast]
        omega

/-! ## Directories -/

theorem rootSlashes_append {root rest : List Char} (isRoot : root = ['/'] ∨ root = ['/', '/'])
    (relative : rest.head? ≠ some '/') : rootSlashes (root ++ rest) = root := by
  cases rest with
  | nil => rcases isRoot with rfl | rfl <;> rfl
  | cons char more =>
      have notSlash : char ≠ '/' := by simpa using relative
      rcases isRoot with rfl | rfl <;> simp [rootSlashes, notSlash]

theorem rooted_append {root : List Char} (isRoot : root = ['/'] ∨ root = ['/', '/'])
    (isName : ∀ name ∈ names, IsName name) : Rooted (root ++ unsplit names) names := by
  refine ⟨isName, ?_⟩
  rcases isRoot with rfl | rfl
  · exact .inl rfl
  · exact .inr rfl

theorem splitLast_append (front : List Char) {last : List Char} (noSlash : '/' ∉ last) :
    splitLast (front ++ '/' :: last) = (front ++ ['/'], last) := by
  have kept : (front ++ '/' :: last).reverse.takeWhile (· != '/') = last.reverse := by
    rw [List.reverse_append, List.reverse_cons, List.append_assoc,
      List.takeWhile_append_of_pos fun char member => ?_]
    · simp
    · have different : char ≠ '/' := fun same => noSlash (same ▸ List.mem_reverse.mp member)
      simpa using different
  rw [splitLast, kept, List.reverse_reverse, List.length_reverse]
  have front_eq : front ++ '/' :: last = (front ++ ['/']) ++ last := by simp
  rw [front_eq, List.length_append, Nat.add_sub_cancel, List.take_left]

theorem toList_directory_of_slashes {path : String} {slashes last : List Char}
    (slashesOnly : ∀ char ∈ slashes, char = '/') (noSlash : '/' ∉ last)
    (spelled : path.toList = slashes ++ '/' :: last) :
    (directory path).toList = slashes ++ ['/'] := by
  have all : (slashes ++ ['/']).all (· == '/') = true := by
    simpa [List.all_eq_true] using slashesOnly
  rw [directory, spelled, splitLast_append _ noSlash]
  dsimp only
  rw [if_pos all, String.toList_ofList]

theorem toList_directory_of_getLast? {path : String} {front last : List Char}
    (notEmpty : front ≠ []) (ends : front.getLast? ≠ some '/') (noSlash : '/' ∉ last)
    (spelled : path.toList = front ++ '/' :: last) : (directory path).toList = front := by
  have named : ¬(front ++ ['/']).all (· == '/') = true := by
    intro all
    have member : front.getLast notEmpty ∈ front ++ ['/'] :=
      List.mem_append_left _ (List.getLast_mem notEmpty)
    have slash := beq_iff_eq.mp (List.all_eq_true.mp all _ member)
    rw [List.getLast?_eq_some_getLast notEmpty, slash] at ends
    exact ends rfl
  have nothing : dropSlashes [] = [] := rfl
  rw [directory, spelled, splitLast_append _ noSlash]
  dsimp only
  rw [if_neg named, String.toList_ofList, dropSlashes_append, if_pos nothing,
    dropSlashes_of_getLast? ends]

theorem Rooted.toList_directory {path : String} (rooted : Rooted path.toList names) :
    (directory path).toList = rootSlashes path.toList ++ unsplit names.dropLast := by
  have isRoot := rootSlashes_of_head? rooted.head?
  have whole := rooted.rootSlashes_append
  generalize rootSlashes path.toList = root at isRoot whole
  have ⟨slashes, root_eq, slashesOnly⟩ :
      ∃ slashes, root = slashes ++ ['/'] ∧ ∀ char ∈ slashes, char = '/' := by
    rcases isRoot with rfl | rfl
    · exact ⟨[], rfl, by simp⟩
    · exact ⟨['/'], rfl, by simp⟩
  rcases List.eq_nil_or_concat names with rfl | ⟨before, last, rfl⟩
  · have spelled : path.toList = slashes ++ '/' :: [] := by
      rw [← whole, root_eq, unsplit, List.append_nil]
    rw [toList_directory_of_slashes slashesOnly (by simp) spelled, root_eq]
    exact (List.append_nil _).symm
  · have noSlash : '/' ∉ last := (rooted.isName last (by simp)).noSlash
    have isName : ∀ name ∈ before, IsName name := fun name member =>
      rooted.isName name (by simp [member])
    rw [List.concat_eq_append] at whole
    rw [List.concat_eq_append, List.dropLast_concat]
    by_cases alone : before = []
    · subst alone
      have spelled : path.toList = slashes ++ '/' :: last := by
        rw [← whole, root_eq]
        simp [unsplit]
      rw [toList_directory_of_slashes slashesOnly noSlash spelled, root_eq]
      exact (List.append_nil _).symm
    · have inner : Rooted (root ++ unsplit before) before := rooted_append isRoot isName
      have some : root ++ unsplit before ≠ [] := fun empty => by simpa [empty] using inner.head?
      have spelled : path.toList = (root ++ unsplit before) ++ '/' :: last := by
        rw [← whole, unsplit_append alone, List.append_assoc]
      exact toList_directory_of_getLast? some (inner.getLast? alone) noSlash spelled

/-! ## From a file to where a specifier leads -/

theorem Rooted.components_joinChars {chars segment : List Char} (rooted : Rooted chars names)
    (relative : segment.head? ≠ some '/') :
    components (Path.joinChars chars segment) = names ++ components segment := by
  have notEmpty : chars ≠ [] := fun empty => by simpa [empty] using rooted.head?
  rw [Path.joinChars, if_neg (by simpa using relative)]
  by_cases ends : chars.getLast? = some '/'
  · have none : names = [] := by
      cases names with
      | nil => rfl
      | cons first rest => exact absurd ends (rooted.getLast? (by simp))
    rcases List.getLast?_eq_some_iff.mp ends with ⟨front, shape⟩
    have halves := components_append_slash front []
    rw [← shape, rooted.components_eq, none] at halves
    rw [if_pos (by simp [ends]), shape, List.append_assoc, List.singleton_append,
      components_append_slash, (List.append_eq_nil_iff.mp halves.symm).1, none]
  · rw [if_neg (by simp [notEmpty, ends]), components_append_slash, rooted.components_eq]

/-- From the directory's names on, the parts of what is joined are followed. -/
theorem Rooted.namesOf_joinChars {chars segment : List Char} (rooted : Rooted chars names)
    (relative : segment.head? ≠ some '/') :
    namesOf (Path.joinChars chars segment) = resolveDots true names.reverse (split segment) := by
  have parts := rooted.components_joinChars relative
  rw [components, components] at parts
  rw [namesOf, ← resolveDots_filter, parts, resolveDots_append [] rooted.isName,
    resolveDots_filter, List.append_nil]

theorem rootSlashes_joinChars {root segment : List Char}
    (isRoot : root = ['/'] ∨ root = ['/', '/']) (isName : ∀ name ∈ names, IsName name)
    (relative : segment.head? ≠ some '/') :
    rootSlashes (joinChars (root ++ unsplit names) segment) = root := by
  have first := head?_unsplit isName
  rw [joinChars, if_neg (by simpa using relative)]
  cases path : unsplit names with
  | nil =>
      have ends : ((root ++ []).isEmpty || (root ++ []).getLast? == some '/') = true := by
        rcases isRoot with rfl | rfl <;> rfl
      rw [if_pos ends, List.append_nil, rootSlashes_append isRoot relative]
  | cons char more =>
      rw [path] at first
      split
      · rw [List.append_assoc]
        exact rootSlashes_append isRoot first
      · rw [List.append_assoc]
        exact rootSlashes_append isRoot first

def Reaches (file specifier target : String) : Prop :=
  ∃ names targetNames, Rooted file.toList names ∧ Rooted target.toList targetNames ∧
    rootSlashes target.toList = rootSlashes file.toList ∧
    Walk names.dropLast (split specifier.toList) targetNames

/-- What a specifier resolves to is the path that it leads to. -/
theorem Reaches.normalize_eq {file specifier target : String}
    (reaches : Reaches file specifier target) (relative : specifier.toList.head? ≠ some '/') :
    normalize (join (directory file) specifier) = target := by
  rcases reaches with ⟨names, targetNames, fileRooted, targetRooted, sameRoot, walk⟩
  have isName : ∀ name ∈ names.dropLast, IsName name := fun name member =>
    fileRooted.isName name (List.dropLast_subset _ member)
  have isRoot := rootSlashes_of_head? fileRooted.head?
  have spelled := fileRooted.toList_directory
  have rooted : Rooted (directory file).toList names.dropLast := by
    rw [spelled]
    exact rooted_append isRoot isName
  have joined := head?_joinChars specifier.toList rooted.head?
  have resolved : namesOf (joinChars (directory file).toList specifier.toList) = targetNames := by
    rw [rooted.namesOf_joinChars relative]
    exact walk.resolveDots_eq isName
  refine String.toList_injective ?_
  rw [normalize, String.toList_ofList, join, String.toList_ofList, normalizeChars_of_head? joined,
    resolved, spelled, rootSlashes_joinChars isRoot isName relative, ← sameRoot]
  exact targetRooted.rootSlashes_append

theorem absoluteForm_absoluteForm (path : String) :
    absoluteForm (absoluteForm path) = absoluteForm path := by
  refine (trimmed_absoluteForm path).absoluteForm_eq ?_
  rw [absoluteForm, String.toList_ofList]
  exact not_mem_absoluteFormChars _

end WorkspaceGraph.Path
