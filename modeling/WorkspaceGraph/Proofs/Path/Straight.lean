import WorkspaceGraph.Proofs.Path.Around
import WorkspaceGraph.Proofs.Path.Parent
/-!
Straight paths. A relative path that begins with a name and never leads above it again ends below
that name, whatever comes in between. Other paths may end elsewhere than their first part says.
-/

namespace WorkspaceGraph.Path

/-- Followed from a depth below a directory, the parts never lead above the directory. -/
inductive Stays : Nat → List (List Char) → Prop
  | arrive (depth : Nat) : Stays depth []
  | stay {depth : Nat} {rest : List (List Char)} {part : List Char}
      (still : part = [] ∨ part = ['.']) (onward : Stays depth rest) : Stays depth (part :: rest)
  | up {depth : Nat} {rest : List (List Char)} (onward : Stays depth rest) :
      Stays (depth + 1) (['.', '.'] :: rest)
  | down {depth : Nat} {rest : List (List Char)} {name : List Char} (isName : IsName name)
      (onward : Stays (depth + 1) rest) : Stays depth (name :: rest)

/-- The parts begin with a name and never lead above it, or they are the one that leads nowhere. -/
inductive Straight : List (List Char) → Prop
  | here : Straight [['.']]
  | below {rest : List (List Char)} {first : List Char} (isName : IsName first)
      (stays : Stays 0 rest) : Straight (first :: rest)

variable {base segment : String} {parts rest : List (List Char)} {name : List Char}

/-! ## Where they lead -/

theorem Stays.walk {depth : Nat} (stays : Stays depth parts)
    (directory inner : List (List Char)) (deep : inner.length = depth) :
    ∃ further, Walk (directory ++ inner) parts (directory ++ further) := by
  induction stays generalizing inner with
  | arrive depth => exact ⟨inner, .arrive _⟩
  | stay still onward induction =>
      rcases induction inner deep with ⟨further, walk⟩
      exact ⟨further, .stay still walk⟩
  | up onward induction =>
      -- What is left is one of the inner names, so the directory stays in front.
      have some : inner ≠ [] := List.ne_nil_of_length_eq_add_one deep
      have cut : (directory ++ inner).dropLast = directory ++ inner.dropLast :=
        List.dropLast_append_of_ne_nil some
      rcases induction inner.dropLast (by rw [List.length_dropLast]; omega) with
        ⟨further, walk⟩
      exact ⟨further, .up (cut ▸ walk)⟩
  | @down depth rest name isName onward induction =>
      rcases induction (inner ++ [name]) (by simp [deep]) with ⟨further, walk⟩
      exact ⟨further, .down isName (List.append_assoc .. ▸ walk)⟩

/-- Straight parts lead to where their first one says: below it, or nowhere. -/
theorem Straight.walk (straight : Straight parts) (directory : List (List Char)) :
    ∃ below, Walk directory parts (directory ++ below) ∧
      ∀ {name}, IsName name → (parts.head? = some name ↔ below.head? = some name) := by
  cases straight with
  | here =>
      refine ⟨[], .stay (.inr rfl) (by simpa using .arrive directory), fun isName => ?_⟩
      constructor
      · intro same
        exact absurd (Option.some.inj same).symm isName.notHere
      · nofun
  | @below rest first isName stays =>
      rcases stays.walk (directory ++ [first]) [] rfl with ⟨further, walk⟩
      rw [List.append_nil, List.append_assoc] at walk
      exact ⟨first :: further, .down isName walk, fun _ => Iff.rfl⟩

theorem Straight.relative (straight : Straight (split segment.toList)) :
    segment.toList.head? ≠ some '/' := by
  intro first
  rcases List.head?_eq_some_iff.mp first with ⟨more, shape⟩
  rw [shape, split, beq_self_eq_true, if_pos rfl] at straight
  cases straight with
  | below isName stays => exact isName.notEmpty rfl

/-! ## Resolving relative paths -/

theorem IsCanonical.resolve (canonical : IsCanonical base) (forward : '\\' ∉ segment.toList)
    (relative : segment.toList.head? ≠ some '/') :
    IsCanonical (Path.resolve base [segment]) ∧
      components (Path.resolve base [segment]).toList =
        resolveDots true (components base.toList).reverse (split segment.toList) := by
  have rooted := canonical.normal.toRooted
  have joined := head?_joinChars segment.toList rooted.head?
  have names := (normalizeChars_rooted joined).components_eq
  have isSlash : rootSlashes (joinChars base.toList segment.toList) = ['/'] := by
    rw [canonical.spelled]
    exact rootSlashes_joinChars (.inl rfl) canonical.isName relative
  have spelled := normalizeChars_of_head? joined
  rw [isSlash] at spelled
  have normal : IsCanonical (normalize (join base segment)) := by
    refine ⟨?_, ?_, ?_⟩
    all_goals rw [normalize, join, String.toList_ofList, String.toList_ofList]
    · rw [names]
      exact (normalizeChars_rooted joined).isName
    · exact not_mem_normalizeChars_joinChars rooted.head? canonical.forward forward
    · rw [names]
      exact spelled
  have whole : Path.resolve base [segment] = normalize (join base segment) := normal.absoluteForm_eq
  rw [whole]
  refine ⟨normal, ?_⟩
  rw [normalize, join, String.toList_ofList, String.toList_ofList, names,
    rooted.namesOf_joinChars relative]

theorem IsCanonical.resolve_name (canonical : IsCanonical base) (isName : IsName segment.toList)
    (forward : '\\' ∉ segment.toList) :
    IsCanonical (Path.resolve base [segment]) ∧
      components (Path.resolve base [segment]).toList =
        components base.toList ++ [segment.toList] := by
  have relative : segment.toList.head? ≠ some '/' := fun first =>
    isName.noSlash (List.mem_of_head? first)
  rcases canonical.resolve forward relative with ⟨resolved, names⟩
  refine ⟨resolved, names.trans ?_⟩
  rw [split_of_noSlash isName.noSlash]
  exact (Walk.down isName (.arrive _)).resolveDots_eq canonical.isName

/-! ## The first part -/

theorem head?_split_eq_some {chars : List Char} (noSlash : '/' ∉ name) :
    (split chars).head? = some name ↔ chars = name ∨ name ++ ['/'] <+: chars := by
  constructor
  · intro first
    rcases List.head?_eq_some_iff.mp first with ⟨rest, parts⟩
    have whole := unsplit_split chars
    rw [parts] at whole
    cases rest with
    | nil => exact .inl whole.symm
    | cons second more =>
        refine .inr ⟨unsplit (second :: more), ?_⟩
        rw [← whole, List.append_assoc]
        rfl
  · rintro (rfl | ⟨rest, rfl⟩)
    · rw [split_of_noSlash noSlash]
      rfl
    · rw [List.append_assoc, List.singleton_append, split_append_slash, split_of_noSlash noSlash]
      rfl

end WorkspaceGraph.Path
