import Mathlib.Data.List.Forall2
import Mathlib.Data.Option.Basic
import WorkspaceGraph.Source.File
/-!
Trees of one shape. They have the same names everywhere, and what their files hold is related. A
path leads to the same place in both, or fails for the same reason.
-/

namespace WorkspaceGraph

inductive Agree {ε α β : Type} (related : α → β → Prop) : Except ε α → Except ε β → Prop
  | error (error : ε) : Agree related (.error error) (.error error)
  | ok {left : α} {right : β} (values : related left right) : Agree related (.ok left) (.ok right)

namespace Agree

variable {ε α β γ δ : Type} {related : α → β → Prop} {outcome : γ → δ → Prop}

theorem eq_iff {left right : Except ε α} : Agree Eq left right ↔ left = right := by
  constructor
  · rintro (error | ⟨rfl⟩)
    · rfl
    · rfl
  · rintro rfl
    cases left with
    | error error => exact .error error
    | ok value => exact .ok rfl

theorem bind {left : Except ε α} {right : Except ε β} (agree : Agree related left right)
    {next : α → Except ε γ} {other : β → Except ε δ}
    (goOn : ∀ left right, related left right → Agree outcome (next left) (other right)) :
    Agree outcome (left >>= next) (right >>= other) := by
  cases agree with
  | error error => exact .error error
  | ok values => exact goOn _ _ values

theorem map {left : Except ε α} {right : Except ε β} (agree : Agree related left right)
    {make : α → γ} {other : β → δ}
    (made : ∀ left right, related left right → outcome (make left) (other right)) :
    Agree outcome (left.map make) (right.map other) := by
  cases agree with
  | error error => exact .error error
  | ok values => exact .ok (made _ _ values)

end Agree

namespace FileTree

/-- The trees, which stand under the same name, have the same names everywhere, and files of one
name hold what is related. -/
inductive Related (contents : String → List UInt8 → List UInt8 → Prop) :
    String → FileTree → FileTree → Prop
  | file {name : String} {left right : List UInt8} (held : contents name left right) :
      Related contents name (file left) (file right)
  | directory {name : String} {left right : List (String × FileTree)}
      (names : left.map (·.1) = right.map (·.1))
      (inner : ∀ pair ∈ left.zip right, Related contents pair.1.1 pair.1.2 pair.2.2) :
      Related contents name (directory left) (directory right)

def Paired (contents : String → List UInt8 → List UInt8 → Prop) (left right : FileTree) : Prop :=
  ∃ name, Related contents name left right

variable {contents : String → List UInt8 → List UInt8 → Prop} {left right : FileTree}

/-! ## Looking up -/

theorem child?_related {left right : List (String × FileTree)}
    (names : left.map (·.1) = right.map (·.1))
    (inner : ∀ pair ∈ left.zip right, Related contents pair.1.1 pair.1.2 pair.2.2)
    (name : String) :
    Option.Rel (Related contents name) (child? name left) (child? name right) := by
  induction left generalizing right with
  | nil =>
      cases right with
      | nil => exact .none
      | cons other others => cases names
  | cons entry rest induction =>
      cases right with
      | nil => cases names
      | cons other others =>
          rw [List.map_cons, List.map_cons, List.cons.injEq] at names
          rw [List.zip_cons_cons, List.forall_mem_cons] at inner
          rw [child?, child?, ← names.1]
          split
          · rename_i same
            rw [← beq_iff_eq.mp same]
            exact .some inner.1
          · exact induction names.2 inner.2

theorem follow_paired {parts : List (List Char)} {above others : List FileTree}
    (outside : List.Forall₂ (Paired contents) above others) (paired : Paired contents left right) :
    Agree (Paired contents) (follow above left parts) (follow others right parts) := by
  induction parts generalizing above others left right with
  | nil => exact .ok paired
  | cons part rest induction =>
      have ⟨name, related⟩ := paired
      cases related with
      | file held => exact .error _
      | directory names inner =>
          rw [follow.eq_def, follow.eq_def others]
          dsimp only
          split
          · exact induction outside paired
          split
          · cases outside with
            | nil => exact induction .nil paired
            | cons outer more => exact induction more outer
          · split
            · exact .error _
            · have children := child?_related names inner (String.ofList part)
              revert children
              generalize child? (String.ofList part) _ = found
              generalize child? (String.ofList part) _ = otherFound
              rintro (child | none)
              · exact induction (.cons paired outside) ⟨_, child⟩
              · exact .error _

theorem find_paired (paired : Paired contents left right) (path : String) :
    Agree (Paired contents) (left.find path) (right.find path) := by
  rw [find, find]
  split
  · exact .error _
  split
  · exact .error _
  · exact follow_paired .nil paired

theorem readText?_paired {texts : String → String → Prop} (paired : Paired contents left right)
    (read : ∀ name left right, contents name left right →
      texts (Text.ofFileLenient left) (Text.ofFileLenient right)) (path : String) :
    Option.Rel texts (left.readText? path) (right.readText? path) := by
  have found := find_paired paired path
  rw [readText?, readText?]
  revert found
  generalize left.find path = leftFound
  generalize right.find path = rightFound
  rintro (fault | ⟨name, held | ⟨names, inner⟩⟩)
  · exact .none
  · exact .some (read _ _ _ held)
  · exact .none

end FileTree

/-! ## Source files -/

namespace Source

variable {contents : String → List UInt8 → List UInt8 → Prop}
  (sources : ∀ name left right, contents name left right → isSourceFile name → left = right)

theorem visits_eq {left right : List (String × FileTree)}
    (names : left.map (·.1) = right.map (·.1)) (path : String)
    (inner : ∀ pair ∈ left.zip right,
      walkEntry path pair.1.1 pair.1.2 = walkEntry path pair.1.1 pair.2.2) :
    visits path left = visits path right := by
  induction left generalizing right with
  | nil =>
      cases right with
      | nil => rfl
      | cons other others => cases names
  | cons entry rest induction =>
      cases right with
      | nil => cases names
      | cons other others =>
          rw [List.map_cons, List.map_cons, List.cons.injEq] at names
          rw [List.zip_cons_cons, List.forall_mem_cons] at inner
          rw [visits, visits, inner.1, names.1, induction names.2 inner.2]

include sources

theorem walkEntry_eq {name : String} {left right : FileTree}
    (related : FileTree.Related contents name left right) :
    ∀ path, walkEntry path name left = walkEntry path name right := by
  induction related with
  | file held =>
      intro path
      rw [walkEntry, walkEntry]
      split
      · rename_i scanned
        rw [sources _ _ _ held scanned]
      · rfl
  | directory names inner induction =>
      intro path
      rw [walkEntry, walkEntry]
      split
      · rfl
      · rw [visits_eq names _ fun pair member => induction pair member _]

/-- If source files hold the same, the same source files are found. -/
theorem filesBelow_eq {left right : FileTree} (paired : FileTree.Paired contents left right)
    (root : String) : filesBelow left root = filesBelow right root := by
  have found := FileTree.find_paired paired root
  rw [filesBelow, filesBelow]
  revert found
  generalize left.find root = leftFound
  generalize right.find root = rightFound
  rintro (fault | ⟨name, held | ⟨names, inner⟩⟩)
  · rfl
  · rfl
  · have same := visits_eq names root fun pair member => walkEntry_eq sources (inner pair member) _
    exact congrArg (fun visited => Except.ok (inOrder visited)) same

end Source

end WorkspaceGraph
