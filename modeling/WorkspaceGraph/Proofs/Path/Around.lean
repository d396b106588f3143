import WorkspaceGraph.Proofs.Path.Below
/-!
Paths around paths. A path is around another if its names are the first names of the other. Between
paths in normal form this is what containment comes to, which looks at the characters only.
-/

namespace WorkspaceGraph.Path

/-- One slash is at the front, and single slashes stand between the names behind it. -/
structure IsCanonical (path : String) : Prop where
  isName : ∀ name ∈ components path.toList, IsName name
  forward : '\\' ∉ path.toList
  spelled : path.toList = '/' :: unsplit (components path.toList)

instance (path : String) : Decidable (IsCanonical path) :=
  decidable_of_iff ((∀ name ∈ components path.toList, IsName name) ∧ '\\' ∉ path.toList ∧
      path.toList = '/' :: unsplit (components path.toList))
    ⟨fun ⟨isName, forward, spelled⟩ => ⟨isName, forward, spelled⟩,
      fun canonical => ⟨canonical.isName, canonical.forward, canonical.spelled⟩⟩

def Around (root path : String) : Prop := components root.toList <+: components path.toList

instance (root path : String) : Decidable (Around root path) :=
  inferInstanceAs (Decidable (components root.toList <+: components path.toList))

theorem components_append_slashed (front : List Char) {names : List (List Char)}
    (isName : ∀ name ∈ names, IsName name) :
    components (front ++ slashed names) = components front ++ names := by
  induction names generalizing front with
  | nil => simp [slashed]
  | cons name rest induction =>
      have parts := List.forall_mem_cons.mp isName
      have alone : components (unsplit [name]) = [name] :=
        components_unsplit (List.forall_mem_singleton.mpr parts.1)
      have moved : front ++ slashed (name :: rest) = (front ++ '/' :: name) ++ slashed rest := by
        simp [slashed]
      rw [unsplit] at alone
      rw [moved, induction _ parts.2, components_append_slash, alone, List.append_assoc]
      rfl

namespace IsCanonical

variable {root path : String}

theorem normal (canonical : IsCanonical path) : Normal path (components path.toList) where
  isName := canonical.isName
  shape := .inl canonical.spelled
  forward := canonical.forward

theorem eq_top (canonical : IsCanonical path) (empty : components path.toList = []) :
    path = "/" := by
  have spelled := canonical.spelled
  rw [empty] at spelled
  exact String.toList_injective spelled

theorem unslashed (canonical : IsCanonical path) (notTop : path ≠ "/") :
    dropSlashes path.toList = path.toList :=
  dropSlashes_of_getLast? (canonical.normal.getLast? fun empty => notTop (canonical.eq_top empty))

theorem trimmed (canonical : IsCanonical path) : Trimmed path := by
  by_cases top : path = "/"
  · exact .inl (by rw [top]; rfl)
  · refine .inr ⟨?_, canonical.unslashed top⟩
    rw [canonical.spelled]
    exact List.cons_ne_nil _ _

theorem absoluteForm_eq (canonical : IsCanonical path) : absoluteForm path = path :=
  canonical.trimmed.absoluteForm_eq canonical.forward

theorem eq_slashed (canonical : IsCanonical path) (notTop : path ≠ "/") :
    path.toList = slashed (components path.toList) := by
  rw [slashed_eq fun empty => notTop (canonical.eq_top empty)]
  exact canonical.spelled

theorem eq_of_around (rootCanonical : IsCanonical root) (canonical : IsCanonical path)
    (around : Around root path) (back : Around path root) : root = path := by
  have same : components root.toList = components path.toList :=
    around.eq_of_length (Nat.le_antisymm around.length_le back.length_le)
  refine String.toList_injective ?_
  rw [rootCanonical.spelled, same, ← canonical.spelled]

theorem around_iff (rootCanonical : IsCanonical root) (canonical : IsCanonical path) :
    Around root path ↔ root = "/" ∨ Below root path := by
  constructor
  · intro around
    by_cases top : root = "/"
    · exact .inl top
    · rcases around with ⟨below, whole⟩
      have rootSome : components root.toList ≠ [] := fun empty => top (rootCanonical.eq_top empty)
      have pathNotTop : path ≠ "/" := by
        rintro rfl
        exact rootSome (List.append_eq_nil_iff.mp whole).1
      refine .inr ⟨below, fun name member => ?_, ?_⟩
      · exact canonical.isName name (whole ▸ List.mem_append_right _ member)
      · rw [canonical.eq_slashed pathNotTop, ← whole, slashed_append,
          ← rootCanonical.eq_slashed top]
  · rintro (rfl | ⟨names, isName, shape⟩)
    · exact List.nil_prefix
    · rw [Around, shape, components_append_slashed _ isName]
      exact List.prefix_append ..

/-- Containment by characters is containment by names. -/
theorem isWithin_iff_around (rootCanonical : IsCanonical root) (canonical : IsCanonical path) :
    isWithin path root = true ↔ Around root path := by
  constructor
  · intro within
    have ⟨below, whole⟩ := canonical.normal.names_of_isWithin rootCanonical.normal.toRooted within
    exact ⟨below, whole.symm⟩
  · intro around
    by_cases top : root = "/"
    · rw [top]
      exact isWithin_iff.mpr (.inr ⟨_, canonical.spelled⟩)
    · have ⟨names, _, shape⟩ :=
        ((rootCanonical.around_iff canonical).mp around).resolve_left top
      rw [isWithin_iff, rootCanonical.unslashed top]
      cases names with
      | nil => exact .inl (String.toList_injective (by simpa [slashed] using shape))
      | cons name rest => exact .inr ⟨name ++ slashed rest, shape⟩

/-- A root that a path only begins with, in the middle of a name, is not around it. -/
theorem not_around_of_sibling (rootCanonical : IsCanonical root) (canonical : IsCanonical path)
    (notTop : root ≠ "/") {char : Char} {rest : List Char}
    (begins : path.toList = root.toList ++ char :: rest) (inside : char ≠ '/') :
    ¬Around root path := by
  intro around
  have ⟨names, _, shape⟩ := ((rootCanonical.around_iff canonical).mp around).resolve_left notTop
  have same : char :: rest = slashed names := List.append_cancel_left (begins.symm.trans shape)
  cases names with
  | nil => cases same
  | cons name more => exact inside (List.cons.inj same).1

end IsCanonical

end WorkspaceGraph.Path
