import WorkspaceGraph.Proofs.Path.Around
import WorkspaceGraph.Proofs.Path.Parent
/-!
What segments lead to from an absolute path. The dots are resolved while a backslash is still part
of a name. As it becomes a slash afterwards, a name may fall into pieces, and a piece may be one
that the path should no longer have.
-/

namespace WorkspaceGraph.Path

variable {chars root : List Char} {names parts : List (List Char)}

def spelled (base : String) (segments : List String) : List Char :=
  (segments.foldl join base).toList

/-- The pieces that the names of a path fall into at their backslashes. Empty ones at the end do not
count. -/
def pieces (chars : List Char) : List (List Char) :=
  ((namesOf chars).flatMap fun name => split (forwardSlashes name)).rdropWhile (· == [])

/-! ## Pieces -/

theorem forwardSlashes_unsplit (names : List (List Char)) :
    forwardSlashes (unsplit names) =
      unsplit (names.flatMap fun name => split (forwardSlashes name)) := by
  induction names with
  | nil => rfl
  | cons name rest induction =>
      cases rest with
      | nil => simp [unsplit, unsplit_split]
      | cons second more =>
          have some : ((second :: more).flatMap fun name => split (forwardSlashes name)) ≠ [] := by
            simp [split_ne_nil]
          rw [List.flatMap_cons, unsplit_append_unsplit (split_ne_nil _) some, unsplit_split,
            ← induction]
          simp [unsplit, forwardSlashes]

theorem dropSlashes_unsplit (noSlash : ∀ part ∈ parts, '/' ∉ part) :
    dropSlashes (unsplit parts) = unsplit (parts.rdropWhile (· == [])) := by
  induction parts using List.reverseRecOn with
  | nil => rfl
  | append_singleton front last induction =>
      have apart := List.forall_mem_append.mp noSlash
      by_cases empty : last = []
      · subst empty
        rw [List.rdropWhile_concat_pos _ _ _ (by simp), ← induction apart.1]
        cases front with
        | nil => rfl
        | cons first rest =>
            have nothing : dropSlashes [] = [] := rfl
            rw [unsplit_append (by simp), dropSlashes_append, if_pos nothing]
      · rw [List.rdropWhile_concat_neg _ _ _ (by simpa using empty)]
        exact dropSlashes_of_getLast? (getLast?_unsplit_concat front empty
          (apart.2 last (List.mem_singleton_self last)))

theorem absoluteFormChars_append (isRoot : root = ['/'] ∨ root = ['/', '/']) (rest : List Char) :
    absoluteFormChars (root ++ rest) =
      if dropSlashes (forwardSlashes rest) = [] then ['/']
      else root ++ dropSlashes (forwardSlashes rest) := by
  have forward : forwardSlashes (root ++ rest) = root ++ forwardSlashes rest := by
    rcases isRoot with rfl | rfl <;> rfl
  have dropped : dropSlashes (root ++ forwardSlashes rest) =
      if dropSlashes (forwardSlashes rest) = [] then []
      else root ++ dropSlashes (forwardSlashes rest) := by
    rcases isRoot with rfl | rfl
    · exact dropSlashes_append [] (forwardSlashes rest)
    · exact dropSlashes_append ['/'] (forwardSlashes rest)
  rw [absoluteFormChars, forward, dropped]
  by_cases empty : dropSlashes (forwardSlashes rest) = []
  · rw [if_pos empty, if_pos empty]
  · rw [if_neg empty, if_neg empty]
    rcases isRoot with rfl | rfl <;> rfl

theorem dropSlashes_unsplit_namesOf (chars : List Char) :
    dropSlashes (forwardSlashes (unsplit (namesOf chars))) = unsplit (pieces chars) := by
  rw [forwardSlashes_unsplit, dropSlashes_unsplit, pieces]
  intro part member
  rcases List.mem_flatMap.mp member with ⟨name, -, inside⟩
  exact (mem_of_mem_split inside).1

theorem noSlash_of_mem_pieces {piece : List Char} (member : piece ∈ pieces chars) :
    '/' ∉ piece := by
  have inside := (List.rdropWhile_prefix _ _).subset member
  rcases List.mem_flatMap.mp inside with ⟨name, -, part⟩
  exact (mem_of_mem_split part).1

theorem getLast?_pieces (chars : List Char) : (pieces chars).getLast? ≠ some [] := by
  intro ends
  have notEmpty : pieces chars ≠ [] := fun empty => by simp [empty] at ends
  have kept := List.rdropWhile_last_not _ _ notEmpty
  rw [List.getLast?_eq_some_getLast notEmpty] at ends
  exact kept (beq_iff_eq.mpr (Option.some.inj ends))

theorem unsplit_pieces_eq_nil_iff : unsplit (pieces chars) = [] ↔ pieces chars = [] := by
  have last := getLast?_pieces chars
  cases shape : pieces chars with
  | nil => exact iff_of_true rfl rfl
  | cons first rest =>
      refine iff_of_false (fun nothing => ?_) (List.cons_ne_nil _ _)
      cases rest with
      | nil =>
          rw [shape] at last
          exact last (congrArg some nothing)
      | cons second more => simp [unsplit] at nothing

theorem pieces_eq_namesOf (forward : ∀ name ∈ namesOf chars, '\\' ∉ name) :
    pieces chars = namesOf chars := by
  have alone : (namesOf chars).flatMap (fun name => split (forwardSlashes name)) =
      (namesOf chars).flatMap fun name => [name] := by
    refine List.flatMap_congr fun name member => ?_
    rw [forwardSlashes_eq (forward name member),
      split_of_noSlash (isName_of_mem_namesOf member).1.noSlash]
  rw [pieces, alone, List.flatMap_singleton', List.rdropWhile_eq_self_iff]
  intro some empty
  exact (isName_of_mem_namesOf (List.getLast_mem some)).1.notEmpty (beq_iff_eq.mp empty)

/-! ## Roots and parts -/

/-- The path is a root with parts behind it, any parts but for an empty one at the end. -/
structure Parted (chars root : List Char) (parts : List (List Char)) : Prop where
  isRoot : root = ['/'] ∨ root = ['/', '/']
  notEmpty : parts ≠ []
  noSlash : ∀ part ∈ parts, '/' ∉ part
  last : parts.getLast? ≠ some []
  shape : chars = root ++ unsplit parts

namespace Parted

theorem split_eq (parted : Parted chars root parts) : split (unsplit parts) = parts :=
  split_unsplit_of_noSlash parted.noSlash parted.notEmpty

theorem not_slashes (parted : Parted chars root parts) :
    unsplit parts ≠ [] ∧ unsplit parts ≠ ['/'] := by
  have whole := parted.split_eq
  constructor
  all_goals
    intro slashes
    rw [slashes] at whole
    exact parted.last (whole ▸ rfl)

/-- There are names only if the parts are names, or if all but the first are and that one is empty:
the slash that it leaves is taken for a part of the root. -/
theorem rooted_iff (parted : Parted chars root parts) : Rooted chars names ↔
    (∀ name ∈ names, IsName name) ∧ (parts = names ∨ root = ['/'] ∧ parts = [] :: names) := by
  have whole := parted.split_eq
  rw [parted.shape]
  constructor
  · intro rooted
    refine ⟨rooted.isName, ?_⟩
    have some : names ≠ [] := by
      rintro rfl
      have ⟨notEmpty, notSlash⟩ := parted.not_slashes
      rcases parted.isRoot with rfl | rfl <;> rcases rooted.shape with shape | shape <;>
        simp_all [unsplit]
    have names_eq := split_unsplit rooted.isName some
    -- Where the root has one slash and the names stand behind two, the first part is empty. The
    -- other way round, a name would begin with a slash.
    rcases parted.isRoot with rfl | rfl
    · rcases rooted.shape with shape | shape
      · have same : unsplit parts = unsplit names := (List.cons.inj shape).2
        exact .inl (by rw [← whole, same, names_eq])
      · have same : unsplit parts = '/' :: unsplit names := (List.cons.inj shape).2
        have slash : split ('/' :: unsplit names) = [] :: names := congrArg ([] :: ·) names_eq
        exact .inr ⟨rfl, by rw [← whole, same, slash]⟩
    · rcases rooted.shape with shape | shape
      · refine absurd ?_ (head?_unsplit rooted.isName)
        rw [← (List.cons.inj shape).2]
        rfl
      · have same : unsplit parts = unsplit names := (List.cons.inj (List.cons.inj shape).2).2
        exact .inl (by rw [← whole, same, names_eq])
  · rintro ⟨isName, rfl | ⟨rfl, rfl⟩⟩
    · exact rooted_append parted.isRoot isName
    · refine ⟨isName, .inr ?_⟩
      cases names with
      | nil => exact absurd rfl parted.last
      | cons first rest => rfl

theorem isCanonical_iff {path : String} (parted : Parted path.toList root parts)
    (forward : '\\' ∉ path.toList) :
    IsCanonical path ↔ root = ['/'] ∧ ∀ part ∈ parts, IsName part := by
  constructor
  · intro canonical
    have spelled := canonical.spelled
    rcases parted.rooted_iff.mp canonical.normal.toRooted with ⟨isName, same | ⟨rfl, same⟩⟩
    · rw [← same] at isName spelled
      have same : root ++ unsplit parts = ['/'] ++ unsplit parts := parted.shape.symm.trans spelled
      exact ⟨List.append_cancel_right same, isName⟩
    · generalize components path.toList = names at same spelled
      subst same
      rw [parted.shape] at spelled
      cases names with
      | nil => exact absurd rfl parted.last
      | cons first rest => simpa [unsplit] using congrArg List.length spelled
  · rintro ⟨rfl, isName⟩
    have rooted : Rooted path.toList parts := ⟨isName, .inl parted.shape⟩
    refine ⟨?_, forward, ?_⟩
    all_goals rw [rooted.components_eq]
    · exact isName
    · exact parted.shape

end Parted

/-! ## Resolving -/

variable {base : String}

/-- The resolved path is the root that was spelled with the pieces behind it. -/
theorem toList_resolve_pieces (absolute : base.toList.head? = some '/') (segments : List String) :
    (resolve base segments).toList =
      if pieces (spelled base segments) = [] then ['/']
      else rootSlashes (spelled base segments) ++ unsplit (pieces (spelled base segments)) := by
  have isRoot := rootSlashes_of_head? (head?_foldl_join segments absolute)
  rw [toList_resolve_foldl segments absolute, absoluteFormChars_append isRoot,
    dropSlashes_unsplit_namesOf]
  simp only [unsplit_pieces_eq_nil_iff]
  rfl

theorem not_mem_resolve (base : String) (segments : List String) :
    '\\' ∉ (resolve base segments).toList := by
  rw [resolve, absoluteForm, String.toList_ofList]
  exact not_mem_absoluteFormChars _

theorem head?_resolve (absolute : base.toList.head? = some '/') (segments : List String) :
    (resolve base segments).toList.head? = some '/' := by
  rw [toList_resolve_pieces absolute segments]
  split
  · rfl
  · rcases rootSlashes_of_head? (head?_foldl_join segments absolute) with root | root <;>
      simp [spelled, root]

theorem resolve_parted (absolute : base.toList.head? = some '/') {segments : List String}
    (notEmpty : pieces (spelled base segments) ≠ []) :
    Parted (resolve base segments).toList (rootSlashes (spelled base segments))
      (pieces (spelled base segments)) where
  isRoot := rootSlashes_of_head? (head?_foldl_join segments absolute)
  notEmpty := notEmpty
  noSlash := fun _ => noSlash_of_mem_pieces
  last := getLast?_pieces _
  shape := by rw [toList_resolve_pieces absolute segments, if_neg notEmpty]

theorem resolve_eq_top (absolute : base.toList.head? = some '/') {segments : List String}
    (empty : pieces (spelled base segments) = []) : resolve base segments = "/" := by
  refine String.toList_injective ?_
  rw [toList_resolve_pieces absolute segments, if_pos empty]
  rfl

/-- Resolving leaves what is in normal form as it is, and nothing else. -/
theorem resolve_nil_eq_iff {path : String} (absolute : path.toList.head? = some '/')
    (forward : '\\' ∉ path.toList) (trimmed : Trimmed path) :
    resolve path [] = path ↔ ∃ names, Rooted path.toList names := by
  have whole : resolve path [] = absoluteForm (normalize path) := rfl
  rw [whole]
  constructor
  · intro same
    have unchanged : '\\' ∉ normalizeChars path.toList := by
      intro member
      rcases mem_normalizeChars absolute member with slash | member
      · cases slash
      · exact forward member
    have rooted := (normalizeChars_rooted absolute).absoluteFormChars unchanged
    have chars_eq : absoluteFormChars (normalizeChars path.toList) = path.toList := by
      simpa [absoluteForm, normalize] using congrArg String.toList same
    exact ⟨_, chars_eq ▸ rooted⟩
  · rintro ⟨names, rooted⟩
    rw [normalize, rooted.normalizeChars_eq, String.ofList_toList]
    exact trimmed.absoluteForm_eq forward

theorem isCanonical_resolve_iff (absolute : base.toList.head? = some '/') {segments : List String} :
    IsCanonical (resolve base segments) ↔
      pieces (spelled base segments) = [] ∨
      rootSlashes (spelled base segments) = ['/'] ∧
        ∀ piece ∈ pieces (spelled base segments), IsName piece := by
  by_cases empty : pieces (spelled base segments) = []
  · refine iff_of_true ?_ (.inl empty)
    rw [resolve_eq_top absolute empty]
    decide
  · rw [(resolve_parted absolute empty).isCanonical_iff (not_mem_resolve base segments)]
    exact (or_iff_right empty).symm

theorem resolve_again_iff (absolute : base.toList.head? = some '/') {segments : List String}
    (trimmed : Trimmed (resolve base segments)) :
    resolve (resolve base segments) [] = resolve base segments ↔
      (∀ piece ∈ pieces (spelled base segments), IsName piece) ∨
      rootSlashes (spelled base segments) = ['/'] ∧
        ∃ rest, pieces (spelled base segments) = [] :: rest ∧ ∀ piece ∈ rest, IsName piece := by
  by_cases empty : pieces (spelled base segments) = []
  · refine iff_of_true ?_ (.inl (by simp [empty]))
    rw [resolve_eq_top absolute empty]
    decide
  · have parted := resolve_parted absolute empty
    rw [resolve_nil_eq_iff (head?_resolve absolute segments) (not_mem_resolve base segments) trimmed]
    constructor
    · rintro ⟨names, rooted⟩
      rcases parted.rooted_iff.mp rooted with ⟨isName, same | ⟨root, same⟩⟩
      · exact .inl (same ▸ isName)
      · exact .inr ⟨root, names, same, isName⟩
    · rintro (isName | ⟨root, rest, same, isName⟩)
      · exact ⟨_, parted.rooted_iff.mpr ⟨isName, .inl rfl⟩⟩
      · exact ⟨rest, parted.rooted_iff.mpr ⟨isName, .inr ⟨root, same⟩⟩⟩

/-! ## Without backslashes -/

theorem not_mem_spelled {segments : List String}
    (forward : ∀ text ∈ base :: segments, '\\' ∉ text.toList) :
    '\\' ∉ spelled base segments := by
  induction segments generalizing base with
  | nil => exact forward base (List.mem_singleton_self base)
  | cons segment rest induction =>
      have ⟨baseForward, others⟩ := List.forall_mem_cons.mp forward
      have ⟨segmentForward, restForward⟩ := List.forall_mem_cons.mp others
      refine induction (List.forall_mem_cons.mpr ⟨fun member => ?_, restForward⟩)
      rw [join, String.toList_ofList] at member
      rcases mem_joinChars member with member | slash | member
      · exact baseForward member
      · cases slash
      · exact segmentForward member

theorem rootSlashes_append_ne {base rest : List Char} (absolute : base.head? = some '/')
    (single : rootSlashes base ≠ ['/', '/']) (relative : base = ['/'] → rest.head? ≠ some '/') :
    rootSlashes (base ++ rest) ≠ ['/', '/'] := by
  by_cases top : base = ['/']
  · rw [top, rootSlashes_append (.inl rfl) (relative top)]
    decide
  · obtain ⟨second, more, rfl⟩ : ∃ second more, base = '/' :: second :: more := by
      rcases List.head?_eq_some_iff.mp absolute with ⟨behind, rfl⟩
      cases behind with
      | nil => exact absurd rfl top
      | cons second more => exact ⟨second, more, rfl⟩
    by_cases slash : second = '/'
    · -- Exactly two slashes are excluded, so there is a third one.
      cases more with
      | nil => simp [slash, rootSlashes] at single
      | cons third more =>
          have another : third = '/' := by
            by_contra name
            simp [slash, rootSlashes, name] at single
          simp [slash, another, rootSlashes]
    · simp [slash, rootSlashes]

/-- Two slashes are only in front of a path if they are in front of what it was joined from. -/
theorem rootSlashes_joinChars_ne {base segment : List Char} (absolute : base.head? = some '/')
    (single : rootSlashes base ≠ ['/', '/']) (segmentSingle : rootSlashes segment ≠ ['/', '/']) :
    rootSlashes (joinChars base segment) ≠ ['/', '/'] := by
  unfold joinChars
  split
  · exact segmentSingle
  · rename_i relative
    split
    · exact rootSlashes_append_ne absolute single fun _ => by simpa using relative
    · rename_i apart
      refine rootSlashes_append_ne absolute single ?_
      rintro rfl
      exact absurd rfl apart

theorem rootSlashes_spelled_ne (absolute : base.toList.head? = some '/') {segments : List String}
    (single : ∀ text ∈ base :: segments, rootSlashes text.toList ≠ ['/', '/']) :
    rootSlashes (spelled base segments) ≠ ['/', '/'] := by
  induction segments generalizing base with
  | nil => exact single base (List.mem_singleton_self base)
  | cons segment rest induction =>
      have ⟨baseSingle, others⟩ := List.forall_mem_cons.mp single
      have ⟨segmentSingle, restSingle⟩ := List.forall_mem_cons.mp others
      refine induction ?_ (List.forall_mem_cons.mpr ⟨?_, restSingle⟩)
      all_goals rw [join, String.toList_ofList]
      · exact head?_joinChars segment.toList absolute
      · exact rootSlashes_joinChars_ne absolute baseSingle segmentSingle

theorem isName_of_mem_pieces {segments : List String} {piece : List Char}
    (forward : ∀ text ∈ base :: segments, '\\' ∉ text.toList)
    (member : piece ∈ pieces (spelled base segments)) : IsName piece := by
  have whole := not_mem_spelled forward
  have names : pieces (spelled base segments) = namesOf (spelled base segments) :=
    pieces_eq_namesOf fun name member inside => whole ((isName_of_mem_namesOf member).2 _ inside)
  rw [names] at member
  exact (isName_of_mem_namesOf member).1

theorem isCanonical_resolve (absolute : base.toList.head? = some '/') {segments : List String}
    (forward : ∀ text ∈ base :: segments, '\\' ∉ text.toList)
    (single : ∀ text ∈ base :: segments, rootSlashes text.toList ≠ ['/', '/']) :
    IsCanonical (resolve base segments) := by
  refine (isCanonical_resolve_iff absolute).mpr
    (.inr ⟨?_, fun _ => isName_of_mem_pieces forward⟩)
  exact (rootSlashes_of_head? (head?_foldl_join segments absolute)).resolve_right
    (rootSlashes_spelled_ne absolute single)

/-! ## Two slashes in front -/

theorem head?_of_rootSlashes (absolute : rootSlashes chars ≠ []) : chars.head? = some '/' := by
  unfold rootSlashes at absolute
  split at absolute
  · rfl
  · rfl
  · rfl
  · exact absurd rfl absolute

theorem IsCanonical.rootSlashes_eq {path : String} (canonical : IsCanonical path) :
    rootSlashes path.toList = ['/'] := by
  rw [canonical.spelled]
  exact rootSlashes_append (.inl rfl) (head?_unsplit canonical.isName)

theorem IsCanonical.rootSlashes_of_isWithin {path root : String} (canonical : IsCanonical root)
    (notTop : root ≠ "/") (within : isWithin path root = true) :
    rootSlashes path.toList = ['/'] := by
  rcases isWithin_iff.mp within with rfl | ⟨rest, shape⟩
  · exact canonical.rootSlashes_eq
  · have front := head?_unsplit canonical.isName
    rw [shape, canonical.unslashed notTop, canonical.spelled]
    cases first : unsplit (components root.toList) with
    | nil =>
        refine absurd (String.toList_injective ?_) notTop
        rw [canonical.spelled, first]
        rfl
    | cons char more =>
        refine rootSlashes_append (.inl rfl) ?_
        rwa [first] at front

theorem IsCanonical.not_isWithin_top {root : String} (canonical : IsCanonical root)
    (notTop : root ≠ "/") : ¬isWithin "/" root = true := by
  rw [canonical.isWithin_iff_around (by decide)]
  exact fun around => notTop (canonical.eq_top (List.prefix_nil.mp around))

/-- A segment with exactly two slashes in front leads to the top or keeps them. -/
theorem rootSlashes_resolve {segment : String} (absolute : base.toList.head? = some '/')
    (forward : ∀ text ∈ [base, segment], '\\' ∉ text.toList)
    (double : rootSlashes segment.toList = ['/', '/']) :
    resolve base [segment] = "/" ∨ rootSlashes (resolve base [segment]).toList = ['/', '/'] := by
  have whole : spelled base [segment] = segment.toList := by
    have absolute := head?_of_rootSlashes (double ▸ List.cons_ne_nil _ _)
    simp [spelled, join, joinChars, absolute]
  by_cases empty : pieces (spelled base [segment]) = []
  · exact .inl (resolve_eq_top absolute empty)
  · have relative := head?_unsplit fun _ => isName_of_mem_pieces forward
    rw [(resolve_parted absolute empty).shape, whole, double]
    rw [whole] at relative
    exact .inr (rootSlashes_append (.inr rfl) relative)

theorem IsCanonical.not_isWithin_resolve {root segment : String} (canonical : IsCanonical root)
    (notTop : root ≠ "/") (absolute : base.toList.head? = some '/')
    (forward : ∀ text ∈ [base, segment], '\\' ∉ text.toList)
    (double : rootSlashes segment.toList = ['/', '/']) :
    ¬isWithin (Path.resolve base [segment]) root = true := by
  intro within
  rcases rootSlashes_resolve absolute forward double with top | kept
  · exact canonical.not_isWithin_top notTop (top ▸ within)
  · have single := canonical.rootSlashes_of_isWithin notTop within
    rw [kept] at single
    cases single

/-- What is resolved begins with a slash, has no backslash, and has no slash at its end unless it is
the root itself. It is the root that was spelled with the pieces behind it. Hence it is canonical,
and resolving it again changes nothing, as far as the pieces are names; they are if no backslash is
in what is resolved. Of a canonical path, containment tells what is around it. -/
theorem resolve_form (base : String) (segments : List String)
    (absolute : base.toList.head? = some '/') :
    (resolve base segments).toList.head? = some '/' ∧
    '\\' ∉ (resolve base segments).toList ∧
    Trimmed (resolve base segments) ∧
    (resolve base segments).toList =
      (if pieces (spelled base segments) = [] then ['/']
      else rootSlashes (spelled base segments) ++ unsplit (pieces (spelled base segments))) ∧
    (IsCanonical (resolve base segments) ↔
      pieces (spelled base segments) = [] ∨
      rootSlashes (spelled base segments) = ['/'] ∧
        ∀ piece ∈ pieces (spelled base segments), IsName piece) ∧
    (resolve (resolve base segments) [] = resolve base segments ↔
      (∀ piece ∈ pieces (spelled base segments), IsName piece) ∨
      rootSlashes (spelled base segments) = ['/'] ∧
        ∃ rest, pieces (spelled base segments) = [] :: rest ∧ ∀ piece ∈ rest, IsName piece) ∧
    ((∀ text ∈ base :: segments, '\\' ∉ text.toList) →
      resolve (resolve base segments) [] = resolve base segments ∧
      ((∀ text ∈ base :: segments, rootSlashes text.toList ≠ ['/', '/']) →
        IsCanonical (resolve base segments))) ∧
    ∀ root, IsCanonical root → IsCanonical (resolve base segments) →
      (isWithin (resolve base segments) root = true ↔ Around root (resolve base segments)) := by
  have trimmed : Trimmed (resolve base segments) := trimmed_absoluteForm _
  have again_iff := resolve_again_iff absolute trimmed
  refine ⟨head?_resolve absolute segments, not_mem_resolve base segments, trimmed,
    toList_resolve_pieces absolute segments, isCanonical_resolve_iff absolute, again_iff, ?_, ?_⟩
  · intro forward
    exact ⟨again_iff.mpr (.inl fun _ => isName_of_mem_pieces forward),
      isCanonical_resolve absolute forward⟩
  · intro root rootCanonical canonical
    exact rootCanonical.isWithin_iff_around canonical

/-- Without a backslash, a path is resolved to a canonical one. -/
theorem resolve_form_plain :
    "/ws/app".toList.head? = some '/' ∧ IsCanonical (resolve "/ws/app" ["..", "./libs//a/"]) ∧
    resolve (resolve "/ws/app" ["..", "./libs//a/"]) [] = resolve "/ws/app" ["..", "./libs//a/"] ∧
    (isWithin (resolve "/ws/app" ["..", "./libs//a/"]) "/ws" = true ↔
      Around "/ws" (resolve "/ws/app" ["..", "./libs//a/"])) := by
  have absolute : "/ws/app".toList.head? = some '/' := by decide
  have ⟨_, _, _, _, _, _, plain, within⟩ := resolve_form "/ws/app" ["..", "./libs//a/"] absolute
  have ⟨again, single⟩ := plain (by decide)
  have canonical := single (by decide)
  exact ⟨absolute, canonical, again, within "/ws" (by decide) canonical⟩

/-- Behind a backslash, two dots are resolved only the next time, and the path leaves the root that
it seemed to be in. Two slashes in front stay two. -/
theorem resolve_hidden :
    resolve "/ws" ["..\\etc"] = "/ws/../etc" ∧
    ['.', '.'] ∈ components (resolve "/ws" ["..\\etc"]).toList ∧
    ¬IsCanonical (resolve "/ws" ["..\\etc"]) ∧
    resolve (resolve "/ws" ["..\\etc"]) [] = "/etc" ∧
    isWithin (resolve "/ws" ["..\\etc"]) "/ws" = true ∧
    isWithin (resolve (resolve "/ws" ["..\\etc"]) []) "/ws" = false ∧
    resolve "//ws" [] = "//ws" ∧ ¬IsCanonical (resolve "//ws" []) := by
  decide

end WorkspaceGraph.Path
