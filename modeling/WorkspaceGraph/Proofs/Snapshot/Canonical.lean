import WorkspaceGraph.Proofs.Snapshot.Edges
/-!
The canonical form is final: bringing a snapshot into it a second time changes nothing, whatever
names are repeated in the snapshot. What a scan puts together is in canonical form from the start.
-/

namespace WorkspaceGraph.Snapshot

/-! ## Nodes -/

theorem mem_canonicalDependencies {owner name : String} {dependencies : List String} :
    name ∈ canonicalDependencies owner dependencies ↔ name ∈ dependencies ∧ name ≠ owner := by
  rw [canonicalDependencies, Order.mem_distinct, List.mem_filter, bne_iff_ne]

theorem canonicalDependencies_of_increasing {owner : String} {dependencies : List String}
    (increasing : dependencies.Pairwise (· < ·)) (others : owner ∉ dependencies) :
    canonicalDependencies owner dependencies = dependencies := by
  have kept : dependencies.filter (· != owner) = dependencies := by
    rw [List.filter_eq_self]
    intro name member
    exact bne_iff_ne.mpr fun same => others (same ▸ member)
  rw [canonicalDependencies, kept, Order.distinct_of_increasing increasing]

theorem canonicalDependencies_canonicalDependencies (owner : String) (dependencies : List String) :
    canonicalDependencies owner (canonicalDependencies owner dependencies) =
      canonicalDependencies owner dependencies := by
  apply canonicalDependencies_of_increasing (Order.distinct_increasing _)
  intro member
  exact (mem_canonicalDependencies.mp member).2 rfl

theorem ProjectNode.canonical_canonical (project : ProjectNode) :
    project.canonical.canonical = project.canonical := by
  simp [canonical, canonicalDependencies_canonicalDependencies]

theorem ComponentNode.canonical_canonical (component : ComponentNode) :
    component.canonical.canonical = component.canonical := by
  simp [canonical, canonicalDependencies_canonicalDependencies]

/-! ## Lists of nodes -/

theorem map_of_fixed {α : Type} {transform : α → α} {list : List α}
    (fixed : ∀ entry ∈ list, transform entry = entry) : list.map transform = list := by
  rw [List.map_congr_left fixed, List.map_id']

theorem canonicalProjects_of_fixed {projects : List ProjectNode}
    (sorted : projects.Pairwise (Order.AtMost fun project => [project.name]))
    (fixed : ∀ project ∈ projects, project.canonical = project) :
    (Order.sortOn (fun project => [project.name]) projects).map ProjectNode.canonical =
      projects := by
  rw [Order.sortOn_of_sorted _ sorted, map_of_fixed fixed]

theorem canonicalComponents_canonicalComponents (components : List ComponentNode) :
    canonicalComponents (canonicalComponents components) = canonicalComponents components := by
  have fixed : (canonicalComponents components).map ComponentNode.canonical =
      canonicalComponents components := by
    apply map_of_fixed
    intro component member
    have inside := (Order.sortOn_perm _ _).mem_iff.mp member
    rcases List.mem_map.mp inside with ⟨raw, _, rfl⟩
    exact raw.canonical_canonical
  rw [canonicalComponents, fixed]
  exact Order.sortOn_of_sorted _ (Order.sortOn_sorted _ _)

/-! ## Snapshots -/

theorem canonical_canonical (snapshot : Snapshot) :
    snapshot.canonical.canonical = snapshot.canonical := by
  have projects : (Order.sortOn (fun project => [project.name]) snapshot.canonical.projects).map
      ProjectNode.canonical = snapshot.canonical.projects := by
    apply canonicalProjects_of_fixed
    · rw [canonical, List.pairwise_map]
      exact Order.sortOn_sorted (fun project : ProjectNode => [project.name]) _
    · intro project member
      rcases List.mem_map.mp member with ⟨raw, _, rfl⟩
      exact raw.canonical_canonical
  have libraries : Order.sortOn (fun library => [library.name]) snapshot.canonical.libraries =
      snapshot.canonical.libraries :=
    Order.sortOn_of_sorted _ (Order.sortOn_sorted _ _)
  have components : canonicalComponents snapshot.canonical.components =
      snapshot.canonical.components :=
    canonicalComponents_canonicalComponents snapshot.components
  have edges : canonicalEdges snapshot.canonical.edges = snapshot.canonical.edges :=
    canonicalEdges_canonicalEdges snapshot.edges
  rw [canonical, projects, libraries, components, edges]

/-! ## Assembled snapshots -/

theorem ProjectNode.canonical_ofProject (edges : List Edge) (project : Project) :
    (ofProject (canonicalEdges edges) project).canonical =
      ofProject (canonicalEdges edges) project := by
  have dependencies : canonicalDependencies project.name
      (ofProject (canonicalEdges edges) project).dependencies =
      (ofProject (canonicalEdges edges) project).dependencies := by
    apply canonicalDependencies_of_increasing (Order.distinct_increasing _)
    intro member
    rcases List.mem_map.mp (Order.mem_distinct.mp member) with ⟨edge, inside, target⟩
    have ⟨listed, source⟩ := List.mem_filter.mp inside
    have different := (mem_canonicalEdges.mp listed).2
    exact different ((beq_iff_eq.mp source).trans target.symm)
  rw [canonical]
  exact congrArg (fun names => { ofProject (canonicalEdges edges) project with
    dependencies := names }) dependencies

theorem libraries_sorted {nodes : List ProjectNode}
    (sorted : nodes.Pairwise (Order.AtMost fun node => [node.name])) :
    (nodes.filterMap LibraryNode.ofNode?).Pairwise
      (Order.AtMost fun library => [library.name]) := by
  have named : ∀ (node : ProjectNode) (library : LibraryNode),
      LibraryNode.ofNode? node = some library → library.name = node.name := by
    intro node library made
    rw [LibraryNode.ofNode?] at made
    split at made
    · cases made
      rfl
    · cases made
  rw [List.pairwise_filterMap]
  apply sorted.imp
  intro left right atMost leftLibrary leftMade rightLibrary rightMade
  rw [Order.AtMost, named left leftLibrary leftMade, named right rightLibrary rightMade]
  exact atMost

theorem canonical_assemble (configPath : String) (projects : List Project)
    (components : List ComponentNode) (edges : List Edge) :
    (assemble configPath projects components edges).canonical =
      assemble configPath projects components edges := by
  have sorted : (assemble configPath projects components edges).projects.Pairwise
      (Order.AtMost fun project => [project.name]) := by
    rw [assemble, List.pairwise_map]
    exact Order.sortOn_sorted (fun project : Project => [project.name]) _
  have nodes := canonicalProjects_of_fixed sorted fun node member => by
    rcases List.mem_map.mp member with ⟨project, _, rfl⟩
    exact ProjectNode.canonical_ofProject edges project
  have libraries : Order.sortOn (fun library => [library.name])
      (assemble configPath projects components edges).libraries =
      (assemble configPath projects components edges).libraries :=
    Order.sortOn_of_sorted _ (libraries_sorted sorted)
  have parts : canonicalComponents (assemble configPath projects components edges).components =
      (assemble configPath projects components edges).components :=
    canonicalComponents_canonicalComponents components
  have joined : canonicalEdges (assemble configPath projects components edges).edges =
      (assemble configPath projects components edges).edges :=
    canonicalEdges_canonicalEdges edges
  rw [canonical, nodes, libraries, parts, joined]

end WorkspaceGraph.Snapshot
