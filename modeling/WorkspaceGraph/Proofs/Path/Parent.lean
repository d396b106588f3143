import Mathlib.Data.List.TakeWhile
import WorkspaceGraph.Proofs.Path.Walk
/-!
The directory that a path stands in. Cutting the last name off what is resolved gives the same place
as resolving what comes before that name; only the way in which the place is spelled may differ.
-/

namespace WorkspaceGraph.Path

variable {chars front rest last name : List Char} {names parts kept : List (List Char)}

/-! ## Splitting before the last name -/

theorem unsplit_split (chars : List Char) : unsplit (split chars) = chars := by
  induction chars with
  | nil => rfl
  | cons char rest induction =>
      cases parts : split rest with
      | nil => exact absurd parts (split_ne_nil rest)
      | cons first more =>
          rw [parts] at induction
          by_cases slash : char = '/'
          · simp [split, slash, parts, unsplit, induction]
          · rw [split, if_neg (by simpa using slash), parts]
            cases more with
            | nil => exact congrArg (char :: ·) induction
            | cons second more => exact congrArg (char :: ·) induction

theorem noSlash_or_exists_last (chars : List Char) :
    '/' ∉ chars ∨ ∃ front last, chars = front ++ '/' :: last ∧ '/' ∉ last := by
  induction chars with
  | nil => exact .inl (by simp)
  | cons char rest induction =>
      rcases induction with noSlash | ⟨front, last, rfl, noSlash⟩
      · by_cases slash : char = '/'
        · exact .inr ⟨[], rest, by rw [slash]; rfl, noSlash⟩
        · exact .inl (by simp [Ne.symm slash, noSlash])
      · exact .inr ⟨char :: front, last, rfl, noSlash⟩

theorem resolveDots_concat (rooted : Bool) (isName : IsName name) :
    resolveDots rooted kept (parts ++ [name]) = resolveDots rooted kept parts ++ [name] := by
  induction parts generalizing kept with
  | nil => simp [resolveDots, isName.notEmpty, isName.notHere, isName.notAbove]
  | cons part rest induction =>
      rw [List.cons_append]
      unfold resolveDots
      split
      · exact induction
      · split
        · split
          · exact induction
          · split <;> exact induction
        · exact induction

theorem namesOf_append_slash (front : List Char) (isName : IsName last) :
    namesOf (front ++ '/' :: last) = namesOf front ++ [last] := by
  rw [namesOf, split_append_slash, split_of_noSlash isName.noSlash, resolveDots_concat true isName]
  rfl

theorem joinChars_append_slash (base : List Char) {front : List Char} (notEmpty : front ≠ []) :
    joinChars base (front ++ '/' :: last) = joinChars base front ++ '/' :: last := by
  cases front with
  | nil => exact absurd rfl notEmpty
  | cons char more =>
      rw [joinChars, joinChars, List.cons_append, List.head?_cons, List.head?_cons]
      split
      · rfl
      · split <;> simp

/-! ## The last name and the directory -/

theorem Rooted.exists_front (rooted : Rooted chars (names ++ [last])) :
    ∃ front, chars = front ++ '/' :: last := by
  have ⟨front, path⟩ : ∃ front, '/' :: unsplit (names ++ [last]) = front ++ '/' :: last := by
    cases names with
    | nil => exact ⟨[], rfl⟩
    | cons first more =>
        refine ⟨'/' :: unsplit (first :: more), ?_⟩
        rw [unsplit_append (by simp)]
        rfl
  rcases rooted.shape with shape | shape
  · exact ⟨front, shape.trans path⟩
  · exact ⟨'/' :: front, shape.trans (congrArg ('/' :: ·) path)⟩

theorem Rooted.toList_baseName {path : String} (rooted : Rooted path.toList (names ++ [last])) :
    (baseName path).toList = last := by
  have ⟨front, shape⟩ := rooted.exists_front
  rw [baseName, shape, splitLast_append _ (rooted.isName last (by simp)).noSlash,
    String.toList_ofList]

theorem Rooted.absoluteFormChars_eq (rooted : Rooted chars names) (notEmpty : names ≠ [])
    (forward : '\\' ∉ chars) : Path.absoluteFormChars chars = chars := by
  rw [Path.absoluteFormChars, forwardSlashes_eq forward,
    dropSlashes_of_getLast? (rooted.getLast? notEmpty)]
  cases chars with
  | nil => cases rooted.head?
  | cons char more => rfl

theorem rootSlashes_append_of_ne {char : Char} (member : char ∈ front) (notSlash : char ≠ '/') :
    rootSlashes (front ++ rest) = rootSlashes front := by
  cases front with
  | nil => cases member
  | cons first front =>
      by_cases firstSlash : first = '/'
      · subst firstSlash
        cases front with
        | nil => exact absurd (List.mem_singleton.mp member) notSlash
        | cons second front =>
            by_cases secondSlash : second = '/'
            · subst secondSlash
              cases front with
              | nil => simp [notSlash] at member
              | cons third front =>
                  by_cases thirdSlash : third = '/' <;> simp [rootSlashes, thirdSlash]
            · simp [rootSlashes, secondSlash]
      · simp [rootSlashes, firstSlash]

theorem absoluteFormChars_rootSlashes (absolute : chars.head? = some '/') :
    absoluteFormChars (rootSlashes chars) = ['/'] := by
  rcases rootSlashes_of_head? absolute with root | root <;> rw [root] <;> rfl

variable {base parent : String}

theorem head?_foldl_join (segments : List String) (absolute : base.toList.head? = some '/') :
    (segments.foldl join base).toList.head? = some '/' := by
  induction segments generalizing base with
  | nil => exact absolute
  | cons segment rest induction =>
      refine induction ?_
      simpa [join] using head?_joinChars segment.toList absolute

theorem toList_resolve_foldl (segments : List String) (absolute : base.toList.head? = some '/') :
    (resolve base segments).toList =
      absoluteFormChars (rootSlashes (segments.foldl join base).toList ++
        unsplit (namesOf (segments.foldl join base).toList)) := by
  rw [← normalizeChars_of_head? (head?_foldl_join segments absolute)]
  simp [resolve, absoluteForm, normalize]

theorem toList_resolve (segment : String) (absolute : base.toList.head? = some '/') :
    (resolve base [segment]).toList =
      absoluteFormChars (rootSlashes (joinChars base.toList segment.toList) ++
        unsplit (namesOf (joinChars base.toList segment.toList))) := by
  simpa [join] using toList_resolve_foldl [segment] absolute

theorem absoluteForm_directory_resolve {segment : String} (absolute : base.toList.head? = some '/')
    (forward : '\\' ∉ base.toList) (segmentForward : '\\' ∉ segment.toList)
    (spelled : segment.toList = parent.toList ++ '/' :: last) (notEmpty : parent.toList ≠ [])
    (isName : IsName last) :
    absoluteForm (directory (resolve base [segment])) = resolve base [parent] := by
  have joined : joinChars base.toList segment.toList =
      joinChars base.toList parent.toList ++ '/' :: last := by
    rw [spelled, joinChars_append_slash _ notEmpty]
  have head := head?_joinChars segment.toList absolute
  have parentHead := head?_joinChars parent.toList absolute
  have isRoot := rootSlashes_of_head? head
  have normal := normal_resolve absolute forward segmentForward
  have unchanged := not_mem_normalizeChars_joinChars absolute forward segmentForward
  have names_eq : namesOf (joinChars base.toList segment.toList) =
      namesOf (joinChars base.toList parent.toList) ++ [last] := by
    rw [joined, namesOf_append_slash _ isName]
  have rooted := normalizeChars_rooted head
  have whole := toList_resolve segment absolute
  rw [← normalizeChars_of_head? head, rooted.absoluteFormChars_eq (by simp [names_eq]) unchanged,
    normalizeChars_of_head? head] at whole
  have slashes : rootSlashes (resolve base [segment]).toList =
      rootSlashes (joinChars base.toList segment.toList) := by
    rw [whole]
    exact rootSlashes_append isRoot (head?_unsplit rooted.isName)
  refine String.toList_injective ?_
  rw [toList_resolve parent absolute, absoluteForm, String.toList_ofList,
    normal.toList_directory, slashes, names_eq, List.dropLast_concat]
  cases parentNames : namesOf (joinChars base.toList parent.toList) with
  | nil =>
      rw [unsplit, List.append_nil, List.append_nil, absoluteFormChars_rootSlashes head,
        absoluteFormChars_rootSlashes parentHead]
  | cons name more =>
      rcases isName_of_mem_namesOf (parentNames ▸ List.mem_cons_self ..) with ⟨isName, inside⟩
      rcases List.exists_mem_of_ne_nil _ isName.notEmpty with ⟨char, member⟩
      have notSlash : char ≠ '/' := fun same => isName.noSlash (same ▸ member)
      rw [joined, rootSlashes_append_of_ne (inside char member) notSlash]

/-! ## Containment -/

theorem mem_dropSlashes {char : Char} (member : char ∈ chars) (notSlash : char ≠ '/') :
    char ∈ dropSlashes chars := by
  have whole : chars.reverse.takeWhile (· == '/') ++ chars.reverse.dropWhile (· == '/') =
      chars.reverse := List.takeWhile_append_dropWhile
  rw [← List.mem_reverse, ← whole, List.mem_append] at member
  rw [dropSlashes, Text.dropEndWhile, List.mem_reverse]
  refine member.resolve_left fun inside => notSlash ?_
  have slash := List.mem_takeWhile_imp inside
  exact beq_iff_eq.mp slash

theorem Trimmed.isWithin_directory {path root : String} (trimmed : Trimmed root)
    (shape : path.toList = dropSlashes root.toList ++ '/' :: rest) :
    isWithin (directory path) root = true := by
  obtain ⟨front, last, spelled, noSlash⟩ : ∃ front last, path.toList = front ++ '/' :: last ∧
      '/' ∉ last := by
    refine (noSlash_or_exists_last path.toList).resolve_left fun absent => absent ?_
    simp [shape]
  obtain ⟨more, front_eq, begins⟩ : ∃ more, front = dropSlashes root.toList ++ more ∧
      '/' :: rest = more ++ '/' :: last := by
    rcases List.append_eq_append_iff.mp (shape.symm.trans spelled) with
      ⟨more, front_eq, rest_eq⟩ | ⟨more, root_eq, last_eq⟩
    · exact ⟨more, front_eq, rest_eq⟩
    · cases more with
      | nil => exact ⟨[], by simpa using root_eq.symm, last_eq.symm⟩
      | cons char more =>
          cases last_eq
          simp at noSlash
  have continued : more = [] ∨ ∃ others, more = '/' :: others := by
    cases more with
    | nil => exact .inl rfl
    | cons char others => exact .inr ⟨others, by rw [(List.cons.inj begins).1]⟩
  rw [directory, spelled, splitLast_append _ noSlash]
  dsimp only
  split
  · refine isWithin_iff.mpr (.inr ?_)
    rw [String.toList_ofList, front_eq]
    rcases continued with rfl | ⟨others, rfl⟩
    · exact ⟨[], by simp⟩
    · exact ⟨others ++ ['/'], by simp⟩
  · rename_i named
    obtain ⟨char, member, notSlash⟩ : ∃ char ∈ front ++ ['/'], char ≠ '/' := by
      simpa using named
    have some := List.ne_nil_of_mem (mem_dropSlashes member notSlash)
    have atRoot : dropSlashes (front ++ ['/']) = dropSlashes root.toList →
        isWithin (String.ofList (dropSlashes (front ++ ['/']))) root = true := by
      intro same
      rcases trimmed with top | ⟨-, unslashed⟩
      · rw [same, top] at some
        exact absurd rfl some
      · rw [same, unslashed, String.ofList_toList]
        exact isWithin_refl root
    have nothing : dropSlashes [] = [] := rfl
    have dropped : dropSlashes (front ++ ['/']) = dropSlashes front := by
      rw [dropSlashes_append, if_pos nothing]
    rcases continued with rfl | ⟨others, rfl⟩
    · refine atRoot ?_
      rw [dropped, front_eq, List.append_nil, dropSlashes_dropSlashes]
    · by_cases slashes : dropSlashes others = []
      · refine atRoot ?_
        rw [dropped, front_eq, dropSlashes_append, if_pos slashes, dropSlashes_dropSlashes]
      · refine isWithin_iff.mpr (.inr ⟨dropSlashes others, ?_⟩)
        rw [String.toList_ofList, dropped, front_eq, dropSlashes_append, if_neg slashes]

/-! ## Relative paths -/

theorem getLast?_relativeFormChars {chars : List Char} {last : Char}
    (ends : chars.getLast? = some last) (notSlash : last ≠ '/') (notBackslash : last ≠ '\\')
    (notNewline : last ≠ '\n') : (relativeFormChars chars).getLast? = some last := by
  have forward : (forwardSlashes chars).getLast? = some last := by
    rw [forwardSlashes, List.getLast?_map, ends, Option.map_some,
      if_neg (by simpa using notBackslash)]
  have undotted : (dropDotSlash (forwardSlashes chars)).getLast? = some last := by
    generalize forwardSlashes chars = chars at forward
    unfold dropDotSlash
    split
    · rename_i rest
      cases rest with
      | nil => exact absurd (Option.some.inj forward).symm notSlash
      | cons char rest => simpa using forward
    · exact forward
  have unslashed : dropFinalSlash (dropDotSlash (forwardSlashes chars)) =
      dropDotSlash (forwardSlashes chars) := by
    refine dropFinalSlash_eq (by simp [undotted, notSlash]) fun front shape => ?_
    rw [shape] at undotted
    simp [Ne.symm notNewline] at undotted
  rw [relativeFormChars, unslashed]
  split
  · rename_i empty
    rw [empty] at undotted
    cases undotted
  · exact undotted

theorem steps_eq {root path : String} {below : List (List Char)}
    (rooted : Rooted root.toList names) (target : Rooted path.toList (names ++ below)) :
    steps root path = if below = [] then "." else String.ofList (unsplit below) := by
  rw [steps, rooted.parts_eq, target.parts_eq, stepsBetween_append]
  cases below <;> rfl

theorem dropSlashes_absoluteForm {path : String} (forward : '\\' ∉ path.toList) :
    dropSlashes (absoluteForm path).toList = dropSlashes path.toList := by
  rw [absoluteForm, String.toList_ofList, absoluteFormChars, forwardSlashes_eq forward]
  split
  · rename_i empty
    rw [empty]
    rfl
  · exact dropSlashes_dropSlashes _

/-- A segment is the way to where it leads exactly if it says where, name by name. -/
theorem steps_resolve_iff {segment : String} {baseNames : List (List Char)}
    (rooted : Rooted base.toList baseNames) (forward : '\\' ∉ base.toList)
    (segmentForward : '\\' ∉ segment.toList)
    (inside : isWithin (resolve base [segment]) (absoluteForm base) = true) :
    steps base (resolve base [segment]) = segment ↔
      segment = "." ∨ ∀ part ∈ split segment.toList, IsName part := by
  have normal := normal_resolve rooted.head? forward segmentForward
  have baseForm : Rooted (absoluteForm base).toList baseNames := by
    simpa [absoluteForm] using rooted.absoluteFormChars forward
  rcases normal.names_of_isWithin baseForm inside with ⟨below, whole⟩
  rw [whole] at normal
  rw [steps_eq rooted normal.toRooted]
  constructor
  · intro same
    split at same
    · exact .inl same.symm
    · rename_i notEmpty
      have isName : ∀ name ∈ below, IsName name := fun name member =>
        normal.isName name (List.mem_append_right _ member)
      rw [← same, String.toList_ofList, split_unsplit isName notEmpty]
      exact .inr isName
  · rintro (rfl | isName)
    · have relative : ".".toList.head? ≠ some '/' := by decide
      have parts : split ".".toList = [['.']] := by decide
      have here := rooted.namesOf_joinChars relative
      rw [whole, parts, resolveDots_still (.inr rfl), resolveDots, List.reverse_reverse] at here
      rw [if_pos (List.append_cancel_left (here.trans (List.append_nil _).symm))]
    · have relative : segment.toList.head? ≠ some '/' := by
        intro first
        rcases List.head?_eq_some_iff.mp first with ⟨more, shape⟩
        rw [shape] at isName
        exact (isName [] (by simp [split])).notEmpty rfl
      have further := rooted.namesOf_joinChars relative
      rw [whole, resolveDots_names true _ isName, List.reverse_reverse] at further
      rw [List.append_cancel_left further, if_neg (split_ne_nil _), unsplit_split,
        String.ofList_toList]

end WorkspaceGraph.Path
