import Mathlib.Data.List.Forall2
import WorkspaceGraph.Proofs.Snapshot.Content
/-!
Snapshots whose lists are written in another order. The canonical form does not see the order of
entries with different names or keys; entries that tie stay in the order in which they are written.
-/

namespace WorkspaceGraph.Snapshot

/-! ## Rearrangements -/

def Reordered {α : Type} (within : α → α → Prop) (left right : List α) : Prop :=
  ∃ middle, List.Forall₂ within left middle ∧ middle.Perm right

inductive ProjectNode.Rearranged (project : ProjectNode) : ProjectNode → Prop
  | intro (dependencies : List String) : project.dependencies.Perm dependencies →
      project.Rearranged { project with dependencies }

inductive ComponentNode.Rearranged (component : ComponentNode) : ComponentNode → Prop
  | intro (dependencies : List String) : component.dependencies.Perm dependencies →
      component.Rearranged { component with dependencies }

inductive Edge.Rearranged (edge : Edge) : Edge → Prop
  | intro (files : List String) : edge.files.Perm files → edge.Rearranged { edge with files }

structure Rearranged (left right : Snapshot) : Prop where
  configPath : left.workspaceConfigPath = right.workspaceConfigPath
  projects : Reordered ProjectNode.Rearranged left.projects right.projects
  libraries : left.libraries.Perm right.libraries
  components : Reordered ComponentNode.Rearranged left.components right.components
  edges : Reordered Edge.Rearranged left.edges right.edges

/-- Entries that tie, which are those of the same name or key, come in the same order. -/
structure SameTies (left right : Snapshot) : Prop where
  projects : ∀ name, (left.projects.filter (·.name = name)).map ProjectNode.canonical =
    (right.projects.filter (·.name = name)).map ProjectNode.canonical
  libraries : ∀ name, left.libraries.filter (·.name = name) =
    right.libraries.filter (·.name = name)
  components : ∀ key, (left.components.filter (·.key = key)).map ComponentNode.canonical =
    (right.components.filter (·.key = key)).map ComponentNode.canonical

/-! ## Entries -/

theorem canonicalDependencies_of_perm {owner : String} {left right : List String}
    (same : left.Perm right) :
    canonicalDependencies owner left = canonicalDependencies owner right := by
  apply Order.distinct_eq_iff.mpr
  intro name
  rw [List.mem_filter, List.mem_filter, same.mem_iff]

theorem ProjectNode.Rearranged.canonical_eq {project other : ProjectNode}
    (rearranged : project.Rearranged other) : project.canonical = other.canonical := by
  cases rearranged with
  | intro dependencies same =>
      simp only [canonical, canonicalDependencies_of_perm same]

theorem ComponentNode.Rearranged.canonical_eq {component other : ComponentNode}
    (rearranged : component.Rearranged other) : component.canonical = other.canonical := by
  cases rearranged with
  | intro dependencies same =>
      simp only [canonical, canonicalDependencies_of_perm same]

section Reordered

variable {α : Type} {within : α → α → Prop} {left right : List α}

theorem Reordered.of_perm (refl : ∀ entry, within entry entry) (order : left.Perm right) :
    Reordered within left right :=
  ⟨left, List.forall₂_same.mpr fun entry _ => refl entry, order⟩

theorem Reordered.map_perm {β : Type} {canonical : α → β} (reordered : Reordered within left right)
    (same : ∀ {entry other}, within entry other → canonical entry = canonical other) :
    (left.map canonical).Perm (right.map canonical) := by
  rcases reordered with ⟨middle, entries, order⟩
  have equal : left.map canonical = middle.map canonical := by
    clear order
    induction entries with
    | nil => rfl
    | cons first _ induction => rw [List.map_cons, List.map_cons, same first, induction]
  rw [equal]
  exact order.map canonical

/-- Some entry is such and such before as after, if rearranging it makes no difference to that. -/
theorem Reordered.exists_iff {holds : α → Prop} (reordered : Reordered within left right)
    (same : ∀ {entry other}, within entry other → (holds entry ↔ holds other)) :
    (∃ entry ∈ left, holds entry) ↔ ∃ entry ∈ right, holds entry := by
  have told := reordered.map_perm fun rearranged => propext (same rearranged)
  have member := @told.mem_iff _ True
  simpa [List.mem_map] using member

end Reordered

theorem Rearranged.of_perm {left right : Snapshot}
    (configPath : left.workspaceConfigPath = right.workspaceConfigPath)
    (projects : left.projects.Perm right.projects) (libraries : left.libraries.Perm right.libraries)
    (components : left.components.Perm right.components) (edges : left.edges.Perm right.edges) :
    left.Rearranged right where
  configPath := configPath
  projects := .of_perm (fun project => .intro project.dependencies (.refl _)) projects
  libraries := libraries
  components := .of_perm (fun component => .intro component.dependencies (.refl _)) components
  edges := .of_perm (fun edge => .intro edge.files (.refl _)) edges

/-! ## Edges -/

theorem canonicalEdges_of_reordered {left right : List Edge}
    (reordered : Reordered Edge.Rearranged left right) :
    canonicalEdges left = canonicalEdges right := by
  apply canonicalEdges_of_filesBetween
  apply filesBetween_congr
  · intro source target
    apply reordered.exists_iff
    intro edge other rearranged
    cases rearranged with
    | intro files same => exact .rfl
  · intro source target file
    apply reordered.exists_iff
    intro edge other rearranged
    cases rearranged with
    | intro files same => rw [same.mem_iff]

/-! ## Ties -/

theorem canonical_projects_eq_sortOn (projects : List ProjectNode) :
    (Order.sortOn (fun project => [project.name]) projects).map ProjectNode.canonical =
      Order.sortOn (fun project => [project.name]) (projects.map ProjectNode.canonical) :=
  (Order.sortOn_map (fun project : ProjectNode => [project.name]) ProjectNode.canonical
    projects).symm

/-- Snapshots with the same edges have the same canonical form exactly if ties come in the same
order. -/
theorem canonical_eq_iff_sameTies {left right : Snapshot}
    (configPath : left.workspaceConfigPath = right.workspaceConfigPath)
    (edges : canonicalEdges left.edges = canonicalEdges right.edges) :
    left.canonical = right.canonical ↔ left.SameTies right := by
  have projects : left.canonical.projects = right.canonical.projects ↔
      ∀ name, (left.projects.filter (·.name = name)).map ProjectNode.canonical =
        (right.projects.filter (·.name = name)).map ProjectNode.canonical := by
    rw [canonical, canonical, canonical_projects_eq_sortOn, canonical_projects_eq_sortOn,
      Order.sortOn_name_eq_iff]
    simp only [List.filter_map]
    exact .rfl
  have libraries : left.canonical.libraries = right.canonical.libraries ↔
      ∀ name, left.libraries.filter (·.name = name) = right.libraries.filter (·.name = name) :=
    Order.sortOn_name_eq_iff
  have components : left.canonical.components = right.canonical.components ↔
      ∀ key, (left.components.filter (·.key = key)).map ComponentNode.canonical =
        (right.components.filter (·.key = key)).map ComponentNode.canonical := by
    rw [canonical, canonical, canonicalComponents, canonicalComponents, Order.sortOn_eq_iff]
    simp only [List.filter_map]
    exact .rfl
  constructor
  · intro same
    exact ⟨projects.mp (same ▸ rfl), libraries.mp (same ▸ rfl), components.mp (same ▸ rfl)⟩
  · intro ties
    rw [Snapshot.mk.injEq]
    exact ⟨configPath, projects.mpr ties.projects, libraries.mpr ties.libraries,
      components.mpr ties.components, edges⟩

namespace Rearranged

variable {left right : Snapshot}

theorem sameCanonical_iff (rearranged : left.Rearranged right) :
    left.canonical = right.canonical ↔ left.SameTies right :=
  canonical_eq_iff_sameTies rearranged.configPath (canonicalEdges_of_reordered rearranged.edges)

theorem projects_canonical_perm (rearranged : left.Rearranged right) :
    left.canonical.projects.Perm right.canonical.projects := by
  rw [canonical, canonical, canonical_projects_eq_sortOn, canonical_projects_eq_sortOn]
  have same := rearranged.projects.map_perm ProjectNode.Rearranged.canonical_eq
  exact (Order.sortOn_perm _ _).trans (same.trans (Order.sortOn_perm _ _).symm)

theorem components_canonical_perm (rearranged : left.Rearranged right) :
    left.canonical.components.Perm right.canonical.components := by
  have same := rearranged.components.map_perm ComponentNode.Rearranged.canonical_eq
  exact (Order.sortOn_perm _ _).trans (same.trans (Order.sortOn_perm _ _).symm)

/-- Where no name or key is repeated nothing ties. -/
theorem canonical_eq (rearranged : left.Rearranged right) (unambiguous : left.Unambiguous) :
    left.canonical = right.canonical := by
  have projects : left.canonical.projects = right.canonical.projects := by
    rw [canonical, canonical, canonical_projects_eq_sortOn, canonical_projects_eq_sortOn]
    apply Order.sortOn_eq_of_perm
    · exact rearranged.projects.map_perm ProjectNode.Rearranged.canonical_eq
    · rw [List.pairwise_map]
      exact unambiguous.projects.imp fun different same => different (List.cons.inj same).1
  have libraries : left.canonical.libraries = right.canonical.libraries := by
    apply Order.sortOn_eq_of_perm _ rearranged.libraries
    exact unambiguous.libraries.imp fun different same => different (List.cons.inj same).1
  have components : left.canonical.components = right.canonical.components := by
    apply Order.sortOn_eq_of_perm
    · exact rearranged.components.map_perm ComponentNode.Rearranged.canonical_eq
    · rw [List.pairwise_map]
      exact unambiguous.components
  rw [Snapshot.mk.injEq]
  exact ⟨rearranged.configPath, projects, libraries, components,
    canonicalEdges_of_reordered rearranged.edges⟩

theorem sameTies (rearranged : left.Rearranged right) (unambiguous : left.Unambiguous) :
    left.SameTies right :=
  rearranged.sameCanonical_iff.mp (rearranged.canonical_eq unambiguous)

end Rearranged

end WorkspaceGraph.Snapshot
