import WorkspaceGraph.Path
/-!
Components of paths. A path that is a root followed by names is in normal form, and its names are
found again by splitting it. Whatever is resolved against such a path is of this form again.
-/

namespace WorkspaceGraph.Path

structure IsName (name : List Char) : Prop where
  notEmpty : name ≠ []
  notHere : name ≠ ['.']
  notAbove : name ≠ ['.', '.']
  noSlash : '/' ∉ name

instance (name : List Char) : Decidable (IsName name) :=
  decidable_of_iff (name ≠ [] ∧ name ≠ ['.'] ∧ name ≠ ['.', '.'] ∧ '/' ∉ name)
    ⟨fun ⟨notEmpty, notHere, notAbove, noSlash⟩ => ⟨notEmpty, notHere, notAbove, noSlash⟩,
      fun isName => ⟨isName.notEmpty, isName.notHere, isName.notAbove, isName.noSlash⟩⟩

def components (chars : List Char) : List (List Char) := (split chars).filter (!·.isEmpty)

/-! ## Splitting -/

theorem split_ne_nil (chars : List Char) : split chars ≠ [] := by
  cases chars with
  | nil => simp [split]
  | cons char rest =>
      rw [split]
      split
      · simp
      · split <;> simp

theorem split_of_noSlash {chars : List Char} (noSlash : '/' ∉ chars) : split chars = [chars] := by
  induction chars with
  | nil => rfl
  | cons char rest induction =>
      rw [List.mem_cons, not_or] at noSlash
      simp [split, Ne.symm noSlash.1, induction noSlash.2]

theorem split_append_slash (front back : List Char) :
    split (front ++ '/' :: back) = split front ++ split back := by
  induction front with
  | nil => rfl
  | cons char rest induction =>
      by_cases slash : char = '/'
      · simp [split, slash, induction]
      · cases parts : split rest with
        | nil => exact absurd parts (split_ne_nil rest)
        | cons first more => simp [split, slash, induction, parts]

theorem mem_of_mem_split {chars part : List Char} (member : part ∈ split chars) :
    '/' ∉ part ∧ ∀ char ∈ part, char ∈ chars := by
  induction chars generalizing part with
  | nil =>
      rw [split, List.mem_singleton] at member
      simp [member]
  | cons char rest induction =>
      by_cases slash : char = '/'
      · simp only [split, slash, beq_self_eq_true, if_true, List.mem_cons] at member
        rcases member with rfl | member
        · simp
        · have parts := induction member
          exact ⟨parts.1, fun other inside => List.mem_cons_of_mem _ (parts.2 other inside)⟩
      · cases parts : split rest with
        | nil => exact absurd parts (split_ne_nil rest)
        | cons first more =>
            rw [parts] at induction
            simp only [split, beq_iff_eq, slash, if_false, parts, List.mem_cons] at member
            rcases member with rfl | member
            · have firstParts := induction (List.mem_cons_self ..)
              refine ⟨?_, fun other inside => ?_⟩
              · rw [List.mem_cons, not_or]
                exact ⟨Ne.symm slash, firstParts.1⟩
              · rcases List.mem_cons.mp inside with rfl | inside
                · exact List.mem_cons_self ..
                · exact List.mem_cons_of_mem _ (firstParts.2 other inside)
            · have parts := induction (List.mem_cons_of_mem _ member)
              exact ⟨parts.1, fun other inside => List.mem_cons_of_mem _ (parts.2 other inside)⟩

theorem mem_split_of_mem {chars : List Char} {char : Char} (member : char ∈ chars) :
    char = '/' ∨ ∃ part ∈ split chars, char ∈ part := by
  induction chars with
  | nil => cases member
  | cons first rest induction =>
      by_cases slash : first = '/'
      · rcases List.mem_cons.mp member with rfl | member
        · exact .inl slash
        · refine (induction member).imp_right ?_
          rintro ⟨part, inside, member⟩
          exact ⟨part, by simp [split, slash, inside], member⟩
      · cases parts : split rest with
        | nil => exact absurd parts (split_ne_nil rest)
        | cons part more =>
            rw [parts] at induction
            have whole : split (first :: rest) = (first :: part) :: more := by
              simp [split, slash, parts]
            rw [whole]
            rcases List.mem_cons.mp member with rfl | member
            · exact .inr ⟨_, List.mem_cons_self .., List.mem_cons_self ..⟩
            · refine (induction member).imp_right ?_
              rintro ⟨other, inside, member⟩
              rcases List.mem_cons.mp inside with rfl | inside
              · exact ⟨_, List.mem_cons_self .., List.mem_cons_of_mem _ member⟩
              · exact ⟨other, List.mem_cons_of_mem _ inside, member⟩

theorem split_unsplit_of_noSlash {parts : List (List Char)}
    (noSlash : ∀ part ∈ parts, '/' ∉ part) (notEmpty : parts ≠ []) :
    split (unsplit parts) = parts := by
  induction parts with
  | nil => exact absurd rfl notEmpty
  | cons first rest induction =>
      have apart := List.forall_mem_cons.mp noSlash
      have alone := split_of_noSlash apart.1
      cases rest with
      | nil => exact alone
      | cons second rest =>
          rw [unsplit, split_append_slash, alone, induction apart.2 (by simp)]
          · rfl
          · simp

theorem split_unsplit {names : List (List Char)} (isName : ∀ name ∈ names, IsName name)
    (notEmpty : names ≠ []) : split (unsplit names) = names :=
  split_unsplit_of_noSlash (fun name member => (isName name member).noSlash) notEmpty

theorem components_append_slash (front back : List Char) :
    components (front ++ '/' :: back) = components front ++ components back := by
  rw [components, split_append_slash, List.filter_append, components, components]

theorem filter_names {names : List (List Char)} (isName : ∀ name ∈ names, IsName name) :
    names.filter (!·.isEmpty) = names := by
  apply List.filter_eq_self.mpr
  intro name member
  simpa using (isName name member).notEmpty

theorem components_unsplit {names : List (List Char)} (isName : ∀ name ∈ names, IsName name) :
    components (unsplit names) = names := by
  cases names with
  | nil => rfl
  | cons first rest =>
      rw [components, split_unsplit isName (by simp)]
      exact filter_names isName

theorem unsplit_injective {names others : List (List Char)} (isName : ∀ name ∈ names, IsName name)
    (otherIsName : ∀ name ∈ others, IsName name) (same : unsplit names = unsplit others) :
    names = others := by
  rw [← components_unsplit isName, same, components_unsplit otherIsName]

theorem unsplit_append_unsplit {parts others : List (List Char)} (some : parts ≠ [])
    (othersSome : others ≠ []) :
    unsplit (parts ++ others) = unsplit parts ++ '/' :: unsplit others := by
  induction parts with
  | nil => exact absurd rfl some
  | cons first rest induction =>
      cases rest with
      | nil =>
          cases others with
          | nil => exact absurd rfl othersSome
          | cons => rfl
      | cons second rest =>
          have appended := induction (by simp)
          simp only [List.cons_append] at appended ⊢
          simp [unsplit, appended]

theorem unsplit_append {names : List (List Char)} (notEmpty : names ≠ []) (name : List Char) :
    unsplit (names ++ [name]) = unsplit names ++ '/' :: name :=
  unsplit_append_unsplit notEmpty (List.cons_ne_nil name [])

theorem mem_unsplit {names : List (List Char)} {char : Char} (member : char ∈ unsplit names) :
    char = '/' ∨ ∃ name ∈ names, char ∈ name := by
  induction names with
  | nil => cases member
  | cons first rest induction =>
      cases rest with
      | nil => exact .inr ⟨first, List.mem_cons_self .., member⟩
      | cons second rest =>
          rcases List.mem_append.mp member with member | member
          · exact .inr ⟨first, List.mem_cons_self .., member⟩
          · rcases List.mem_cons.mp member with rfl | member
            · exact .inl rfl
            · rcases induction member with same | ⟨name, inside, charMember⟩
              · exact .inl same
              · exact .inr ⟨name, List.mem_cons_of_mem _ inside, charMember⟩

theorem unsplit_eq_append (names : List (List Char)) (last : List Char) :
    ∃ front, unsplit (names ++ [last]) = front ++ last := by
  cases names with
  | nil => exact ⟨[], rfl⟩
  | cons first rest =>
      refine ⟨unsplit (first :: rest) ++ ['/'], ?_⟩
      rw [unsplit_append (by simp)]
      simp

/-! ## Resolving dots -/

theorem resolveDots_names (rooted : Bool) (kept : List (List Char)) {names : List (List Char)}
    (isName : ∀ name ∈ names, IsName name) :
    resolveDots rooted kept names = kept.reverse ++ names := by
  induction names generalizing kept with
  | nil => simp [resolveDots]
  | cons name rest induction =>
      have parts := List.forall_mem_cons.mp isName
      simp [resolveDots, parts.1.notEmpty, parts.1.notHere, parts.1.notAbove,
        induction (name :: kept) parts.2]

theorem isName_of_mem_resolveDots {kept parts : List (List Char)} {name : List Char}
    (member : name ∈ resolveDots true kept parts) (keptNames : ∀ name ∈ kept, IsName name)
    (noSlash : ∀ part ∈ parts, '/' ∉ part) :
    IsName name ∧ (name ∈ kept ∨ name ∈ parts) := by
  induction parts generalizing kept with
  | nil =>
      rw [resolveDots, List.mem_reverse] at member
      exact ⟨keptNames name member, .inl member⟩
  | cons part rest induction =>
      have noSlash := List.forall_mem_cons.mp noSlash
      have weaken : ∀ {before : List (List Char)},
          IsName name ∧ (name ∈ before ∨ name ∈ rest) → (∀ other ∈ before, other ∈ kept) →
          IsName name ∧ (name ∈ kept ∨ name ∈ part :: rest) := fun found sub =>
        ⟨found.1, found.2.imp (sub name) (List.mem_cons_of_mem _)⟩
      unfold resolveDots at member
      split at member
      · exact weaken (induction member keptNames noSlash.2) fun _ inside => inside
      · rename_i notHere
        split at member
        · cases kept with
          | nil =>
              exact weaken (induction member (by simp) noSlash.2) fun _ inside => by
                simp at inside
          | cons last before =>
              have keptParts := List.forall_mem_cons.mp keptNames
              simp only [beq_iff_eq, keptParts.1.notAbove, if_false] at member
              exact weaken (induction member keptParts.2 noSlash.2)
                fun _ inside => List.mem_cons_of_mem _ inside
        · rename_i notAbove
          simp only [Bool.or_eq_true, beq_iff_eq, not_or] at notHere notAbove
          have isName : IsName part := ⟨notHere.1, notHere.2, notAbove, noSlash.1⟩
          have found := induction member (List.forall_mem_cons.mpr ⟨isName, keptNames⟩) noSlash.2
          refine ⟨found.1, found.2.elim (fun inside => ?_) fun inside => .inr ?_⟩
          · rcases List.mem_cons.mp inside with rfl | inside
            · exact .inr (List.mem_cons_self ..)
            · exact .inl inside
          · exact List.mem_cons_of_mem _ inside

end WorkspaceGraph.Path
