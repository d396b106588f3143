import WorkspaceGraph.Proofs.Scan.Graph
/-!
The views of a snapshot. A dependency shows in the edges, in the project and in the component it
comes from; in a snapshot that was scanned the three agree, and every list is in strict order.
-/

namespace WorkspaceGraph

namespace Snapshot

def ComponentNode.place (component : ComponentNode) : List String :=
  [component.project, component.filePath]

def ProjectNode.isLibrary (project : ProjectNode) : Bool := project.type = .library

def HasProject (snapshot : Snapshot) (name : String) : Prop :=
  ∃ project ∈ snapshot.projects, project.name = name

structure Agrees (registry : Registry) (snapshot : Snapshot) : Prop where
  projects : snapshot.projects.Pairwise fun left right => left.name < right.name
  registered : ∀ name, snapshot.HasProject name ↔ name ∈ registry.entries.map (·.1)
  libraries : snapshot.libraries = (snapshot.projects.filter ProjectNode.isLibrary).map
    fun project =>
      ⟨project.name, project.rootPath, project.sourceRootPath, project.configFilePath⟩
  edges : snapshot.edges.Pairwise fun left right => left.key < right.key
  ends : ∀ edge ∈ snapshot.edges, edge.source ≠ edge.target ∧
    snapshot.HasProject edge.source ∧ snapshot.HasProject edge.target
  files : ∀ edge ∈ snapshot.edges, edge.files ≠ [] ∧ edge.files.Pairwise (· < ·)
  dependencies : ∀ project ∈ snapshot.projects, project.dependencies.Pairwise (· < ·) ∧
    ∀ target, target ∈ project.dependencies ↔
      ∃ edge ∈ snapshot.edges, edge.source = project.name ∧ edge.target = target
  components : snapshot.components.Pairwise fun left right => left.place < right.place
  owners : ∀ component ∈ snapshot.components, snapshot.HasProject component.project
  componentDependencies : ∀ component ∈ snapshot.components,
    component.dependencies.Pairwise (· < ·) ∧ component.project ∉ component.dependencies ∧
    ∀ target, target ∈ component.dependencies ↔
      Listed snapshot.edges component.project target component.filePath

theorem libraries_eq (nodes : List ProjectNode) :
    nodes.filterMap LibraryNode.ofNode? = (nodes.filter ProjectNode.isLibrary).map fun project =>
      ⟨project.name, project.rootPath, project.sourceRootPath, project.configFilePath⟩ := by
  induction nodes with
  | nil => rfl
  | cons node rest induction =>
      rw [List.filterMap_cons, List.filter_cons, induction]
      cases type : node.type <;> simp [LibraryNode.ofNode?, ProjectNode.isLibrary, type]

theorem place_lt_of_not_key_lt {left right : ComponentNode} (ordered : ¬right.key < left.key)
    (different : ¬(left.project = right.project ∧ left.filePath = right.filePath)) :
    left.place < right.place := by
  have keysDiffer : left.key ≠ right.key := by
    intro same
    simp only [ComponentNode.key, List.cons.injEq] at same
    exact different ⟨same.1, same.2.1⟩
  have below := Order.lt_of_not_lt_of_ne ordered keysDiffer
  simp only [ComponentNode.key, List.cons_lt_cons_iff] at below
  simp only [ComponentNode.place, List.cons_lt_cons_iff]
  rcases below with below | ⟨sameProject, below | ⟨samePath, _⟩⟩
  · exact .inl below
  · exact .inr ⟨sameProject, .inl below⟩
  · exact absurd ⟨sameProject, samePath⟩ different

end Snapshot

namespace Scan

variable {tree : FileTree} {root : String} {rootNames : List (List Char)} {registry : Registry}
  {survey : Survey}

theorem projects_ofSurvey : (ofSurvey tree survey).projects =
    (Order.sortOn (fun project => [project.name]) survey.projects).map
      (Snapshot.ProjectNode.ofProject (ofSurvey tree survey).edges) := rfl

theorem hasProject_iff {name : String} :
    (ofSurvey tree survey).HasProject name ↔ ∃ project ∈ survey.projects, project.name = name := by
  rw [Snapshot.HasProject, projects_ofSurvey]
  constructor
  · intro listed
    rcases listed with ⟨node, member, named⟩
    rcases List.mem_map.mp member with ⟨project, inside, rfl⟩
    exact ⟨project, (Order.sortOn_perm _ _).mem_iff.mp inside, named⟩
  · intro listed
    rcases listed with ⟨project, member, named⟩
    have inside := (Order.sortOn_perm (fun project : Project => [project.name]) _).mem_iff.mpr member
    exact ⟨_, List.mem_map.mpr ⟨project, inside, rfl⟩, named⟩

theorem exists_of_leads (made : survey.Made tree root registry) {file specifier target : String}
    (leads : Resolution.Leads survey.rules survey.projects file specifier target) :
    ∃ project ∈ survey.projects, project.name = target := by
  cases leads with
  | relative _ owner owns => exact ⟨owner, owns.isMember, rfl⟩
  | aliased _ before after rule ordered =>
      have member : rule ∈ survey.rules := by
        rw [ordered]
        exact List.mem_append_right _ (List.mem_cons_self ..)
      have ⟨project, inside, named⟩ := AliasRule.exists_of_mem_load made.rules member
      exact ⟨project, (Project.sortByRoot_perm _).mem_iff.mp inside, named⟩

theorem projects_increasing (made : survey.Made tree root registry) :
    (ofSurvey tree survey).projects.Pairwise fun left right => left.name < right.name := by
  rw [projects_ofSurvey, List.pairwise_map]
  exact Order.sortOn_names_increasing (made.increasing.imp Std.ne_of_lt)

theorem dependencies_of_mem_projects {node : Snapshot.ProjectNode}
    (member : node ∈ (ofSurvey tree survey).projects) :
    node.dependencies.Pairwise (· < ·) ∧ ∀ target, target ∈ node.dependencies ↔
      ∃ edge ∈ (ofSurvey tree survey).edges, edge.source = node.name ∧ edge.target = target := by
  rw [projects_ofSurvey] at member
  rcases List.mem_map.mp member with ⟨project, _, rfl⟩
  refine ⟨Order.distinct_increasing _, fun target => ?_⟩
  simp [Snapshot.ProjectNode.ofProject, Order.mem_distinct, and_assoc]

theorem ends_of_mem_edges (made : survey.Made tree root registry)
    (exact : Exact tree registry survey (ofSurvey tree survey)) {edge : Snapshot.Edge}
    (member : edge ∈ (ofSurvey tree survey).edges) :
    edge.source ≠ edge.target ∧ (ofSurvey tree survey).HasProject edge.source ∧
      (ofSurvey tree survey).HasProject edge.target := by
  cases files : edge.files with
  | nil => exact absurd files (files_of_mem_edges member).1
  | cons file rest =>
      have listed : Snapshot.Listed (ofSurvey tree survey).edges edge.source edge.target file :=
        ⟨edge, member, rfl, rfl, files ▸ List.mem_cons_self ..⟩
      rcases (exact.edges _ _ _).mp listed with ⟨project, found, hasFile, named, imports⟩
      rcases imports.2 with ⟨specifier, _, leads⟩
      refine ⟨named ▸ imports.1.symm, hasProject_iff.mpr ⟨project, hasFile.isMember, named⟩, ?_⟩
      exact hasProject_iff.mpr (exists_of_leads made leads)

theorem dependencies_of_mem_components
    (exact : Exact tree registry survey (ofSurvey tree survey)) {component : Snapshot.ComponentNode}
    (member : component ∈ (ofSurvey tree survey).components) :
    (ofSurvey tree survey).HasProject component.project ∧
    component.dependencies.Pairwise (· < ·) ∧ component.project ∉ component.dependencies ∧
    ∀ target, target ∈ component.dependencies ↔ Snapshot.Listed (ofSurvey tree survey).edges
      component.project target component.filePath := by
  rcases (exact.components component).mp member with ⟨project, found, hasFile, isComponent⟩
  refine ⟨hasProject_iff.mpr ⟨project, hasFile.isMember, isComponent.owner.symm⟩,
    isComponent.increasing, fun self => ?_, fun target => ?_⟩
  · have imports := (isComponent.dependencies _).mp self
    exact imports.1 isComponent.owner
  · rw [isComponent.dependencies, exact.edges]
    constructor
    · intro imports
      exact ⟨project, found, hasFile, isComponent.owner.symm, imports⟩
    · intro listed
      rcases listed with ⟨other, otherFound, otherHasFile, named, imports⟩
      have same := exact.namesOnce _ otherHasFile.isMember _ hasFile.isMember
        (named.trans isComponent.owner)
      subst same
      rw [exact.pathsOnce _ _ _ _ hasFile otherHasFile]
      exact imports

theorem agrees_of_exact (made : survey.Made tree root registry)
    (exact : Exact tree registry survey (ofSurvey tree survey)) :
    (ofSurvey tree survey).Agrees registry where
  projects := projects_increasing made
  registered := fun name => by
    rw [hasProject_iff, ← exact.projects.mem_iff, List.mem_map]
  libraries := Snapshot.libraries_eq _
  edges := Snapshot.canonicalEdges_increasing _
  ends := fun _ member => ends_of_mem_edges made exact member
  files := fun _ member => files_of_mem_edges member
  dependencies := fun _ member => dependencies_of_mem_projects member
  components := by
    have sorted := Order.sortOn_sorted Snapshot.ComponentNode.key
      ((foundComponents tree survey).map Snapshot.ComponentNode.canonical)
    rw [← Snapshot.canonicalComponents, ← components_ofSurvey] at sorted
    exact sorted.imp₂ (fun _ _ => Snapshot.place_lt_of_not_key_lt) exact.componentsOnce
  owners := fun _ member => (dependencies_of_mem_components exact member).1
  componentDependencies := fun _ member => (dependencies_of_mem_components exact member).2

/-- Whenever a scan of a workspace in a plain tree succeeds, the views of its snapshot agree. -/
theorem run_agrees {directory path : String} {snapshot : Snapshot} (plain : tree.Plain)
    (absolute : directory.toList.head? = some '/')
    (scanned : run tree (Path.absolute directory path) = .ok snapshot) :
    ∃ registry, Registry.load tree (Path.absolute directory path) = .ok registry ∧
      snapshot.Agrees registry := by
  rcases made_of_run scanned with ⟨registry, survey, made, rfl⟩
  have ⟨_, rooted⟩ := Path.absolute_rooted path absolute
  exact ⟨registry, made.loaded, agrees_of_exact made (exact_of_made made plain rooted)⟩

theorem run_agrees_pairTree :
    ∃ registry, Registry.load pairTree (Path.absolute "/" "w") = .ok registry ∧
      pairSnapshot.Agrees registry :=
  run_agrees plain_pairTree rfl run_pairTree

end Scan

end WorkspaceGraph
