import WorkspaceGraph.Proofs.Snapshot.Edges
import WorkspaceGraph.Proofs.Source.Walk
import WorkspaceGraph.Proofs.Workspace.Survey
/-!
The graph of a workspace, as its sources declare it, and the snapshot of a scan, which is exactly
that graph.
-/

namespace WorkspaceGraph

/-! ## The declared graph -/

namespace Survey

structure HasFile (tree : FileTree) (survey : Survey) (project : Project) (found : Source.Found)
    (file : String) : Prop where
  isMember : project ∈ survey.projects
  listed : ∃ files, Source.filesBelow tree project.absoluteScanRootPath = .ok files ∧ found ∈ files
  path : Path.relativeTo survey.root found.path = some file

def Imports (survey : Survey) (project : Project) (found : Source.Found) (target : String) : Prop :=
  target ≠ project.name ∧
    ∃ specifier ∈ Source.Import.specifiers (Text.ofFileLenient found.content),
      Resolution.Leads survey.rules survey.projects found.path specifier target

structure IsComponent (survey : Survey) (project : Project) (found : Source.Found)
    (component : Snapshot.ComponentNode) : Prop where
  owner : component.project = project.name
  metadata : Source.Component.extract? (Text.ofFileLenient found.content) component.filePath =
    some ⟨component.name, component.className, component.selector, component.standalone⟩
  dependencies : ∀ target, target ∈ component.dependencies ↔ survey.Imports project found target
  increasing : component.dependencies.Pairwise (· < ·)

end Survey

structure Scan.Exact (tree : FileTree) (registry : Registry) (survey : Survey)
    (snapshot : Snapshot) : Prop where
  projects : (survey.projects.map (·.name)).Perm (registry.entries.map (·.1))
  edges : ∀ source target file, Snapshot.Listed snapshot.edges source target file ↔
    ∃ project found, survey.HasFile tree project found file ∧ project.name = source ∧
      survey.Imports project found target
  components : ∀ component, component ∈ snapshot.components ↔
    ∃ project found, survey.HasFile tree project found component.filePath ∧
      survey.IsComponent project found component
  edgesOnce : snapshot.edges.Pairwise fun left right => left.key ≠ right.key
  filesOnce : ∀ edge ∈ snapshot.edges, edge.files.Nodup
  componentsOnce : snapshot.components.Pairwise fun left right =>
    ¬(left.project = right.project ∧ left.filePath = right.filePath)
  /-- A name stands for one project, and a path for one file of it. -/
  namesOnce : ∀ project ∈ survey.projects, ∀ other ∈ survey.projects,
    project.name = other.name → project = other
  pathsOnce : ∀ project found other file, survey.HasFile tree project found file →
    survey.HasFile tree project other file → found = other

namespace Scan

/-! ## Files -/

theorem mem_filesOf {tree : FileTree} {project : Project} {found : Source.Found} :
    found ∈ filesOf tree project ↔
      ∃ files, Source.filesBelow tree project.absoluteScanRootPath = .ok files ∧ found ∈ files := by
  rw [filesOf]
  split
  · rename_i files listed
    simp [listed]
  · rename_i failure listed
    simp [listed]

variable {tree : FileTree} {root : String} {rootNames : List (List Char)} {registry : Registry}
  {survey : Survey}

theorem within_of_mem_filesOf (made : survey.Made tree root registry) (proper : tree.Proper)
    {project : Project} {found : Source.Found} (member : project ∈ survey.projects)
    (inside : found ∈ filesOf tree project) :
    Path.isWithin found.path project.absoluteScanRootPath = true := by
  have ⟨files, listed, inside⟩ := mem_filesOf.mp inside
  exact Source.filesBelow_within proper (made.placed member).scanRoot_trimmed listed inside

theorem exists_hasFile (made : survey.Made tree root registry) (proper : tree.Proper)
    {project : Project} {found : Source.Found} (member : project ∈ survey.projects)
    (inside : found ∈ filesOf tree project) :
    ∃ file, survey.HasFile tree project found file := by
  have within := within_of_mem_filesOf made proper member inside
  have some := (made.placed member).scanRoot_trimmed.isEmpty_of_isWithin within
  exact ⟨_, member, mem_filesOf.mp inside, if_neg (by simp [some])⟩

theorem paths_of_filesOf (made : survey.Made tree root registry) (plain : tree.Plain)
    (rooted : Path.Rooted root.toList rootNames) {project : Project}
    (member : project ∈ survey.projects) :
    (filesOf tree project).Pairwise fun left right =>
      Path.relativeTo survey.root left.path ≠ Path.relativeTo survey.root right.path := by
  have ⟨between, normal⟩ := made.scanRoot_normal plain rooted member
  rw [made.root_eq, filesOf]
  split
  · rename_i files listed
    refine (Source.filesBelow_distinct plain normal listed).imp_of_mem ?_
    intro left right leftMember rightMember different
    have ⟨_, leftLocated⟩ := Source.filesBelow_below plain normal listed leftMember
    have ⟨_, rightLocated⟩ := Source.filesBelow_below plain normal listed rightMember
    exact Source.relativeTo_ne_of_below leftLocated rightLocated rooted different
  · exact .nil

theorem found_eq (made : survey.Made tree root registry) (plain : tree.Plain)
    (rooted : Path.Rooted root.toList rootNames) {project : Project} {found other : Source.Found}
    {file : String} (hasFile : survey.HasFile tree project found file)
    (otherHasFile : survey.HasFile tree project other file) : found = other :=
  List.inj_on_of_nodup_map
    (List.pairwise_map.mpr (paths_of_filesOf made plain rooted hasFile.isMember))
    (mem_filesOf.mpr hasFile.listed) (mem_filesOf.mpr otherHasFile.listed)
    (hasFile.path.trans otherHasFile.path.symm)

/-! ## Findings -/

def dependenciesOf (survey : Survey) (project : Project) (found : Source.Found) : List String :=
  Resolution.dependencies survey.rules survey.owners project.name found.path
    (Source.Import.specifiers (Text.ofFileLenient found.content))

theorem mem_dependenciesOf (made : survey.Made tree root registry) {project : Project}
    {found : Source.Found} {target : String} :
    target ∈ dependenciesOf survey project found ↔ survey.Imports project found target := by
  rw [dependenciesOf, made.owners_eq]
  exact Resolution.mem_dependencies

theorem edges_file (project : Project) (found : Source.Found) :
    (Scan.file survey project found).edges = (dependenciesOf survey project found).map
      fun target => ⟨project.name, target, [(Path.relativeTo survey.root found.path).getD "."]⟩ := by
  simp only [Scan.file, dependenciesOf]

theorem listed_file {project : Project} {found : Source.Found} {file : String}
    (path : Path.relativeTo survey.root found.path = some file) {source target other : String} :
    Snapshot.Listed (Scan.file survey project found).edges source target other ↔
      project.name = source ∧ target ∈ dependenciesOf survey project found ∧ file = other := by
  rw [edges_file, path, Option.getD_some]
  constructor
  · rintro ⟨edge, member, rfl, rfl, inside⟩
    rcases List.mem_map.mp member with ⟨target, leads, rfl⟩
    exact ⟨rfl, leads, (List.mem_singleton.mp inside).symm⟩
  · rintro ⟨rfl, leads, rfl⟩
    exact ⟨_, List.mem_map.mpr ⟨target, leads, rfl⟩, rfl, rfl, List.mem_singleton.mpr rfl⟩

def foundEdges (tree : FileTree) (survey : Survey) : List Snapshot.Edge :=
  survey.projects.flatMap fun project =>
    (filesOf tree project).flatMap fun found => (Scan.file survey project found).edges

theorem edges_ofSurvey :
    (ofSurvey tree survey).edges = Snapshot.canonicalEdges (foundEdges tree survey) := by
  simp only [ofSurvey, join, Snapshot.assemble, project, List.flatMap_map, foundEdges]

theorem edges_exact (made : survey.Made tree root registry) (proper : tree.Proper)
    {source target file : String} :
    Snapshot.Listed (ofSurvey tree survey).edges source target file ↔
      ∃ project found, survey.HasFile tree project found file ∧ project.name = source ∧
        survey.Imports project found target := by
  rw [edges_ofSurvey, Snapshot.listed_canonicalEdges, foundEdges]
  simp only [Snapshot.listed_flatMap]
  constructor
  · rintro ⟨⟨project, member, found, inside, listed⟩, -⟩
    have ⟨path, hasFile⟩ := exists_hasFile made proper member inside
    have ⟨named, leads, same⟩ := (listed_file hasFile.path).mp listed
    exact ⟨project, found, same ▸ hasFile, named, (mem_dependenciesOf made).mp leads⟩
  · rintro ⟨project, found, hasFile, rfl, imports⟩
    refine ⟨⟨project, hasFile.isMember, found, mem_filesOf.mpr hasFile.listed, ?_⟩,
      imports.1.symm⟩
    exact (listed_file hasFile.path).mpr ⟨rfl, (mem_dependenciesOf made).mpr imports, rfl⟩

/-! ## Components -/

theorem mem_components_file {project : Project} {found : Source.Found} {file : String}
    (path : Path.relativeTo survey.root found.path = some file)
    {component : Snapshot.ComponentNode} :
    component ∈ (Scan.file survey project found).components ↔
      component.project = project.name ∧ component.filePath = file ∧
      component.dependencies = dependenciesOf survey project found ∧
      Source.Component.extract? (Text.ofFileLenient found.content) file =
        some ⟨component.name, component.className, component.selector, component.standalone⟩ := by
  simp only [Scan.file, path, Option.getD_some, Option.mem_toList, Option.map_eq_some_iff,
    dependenciesOf]
  constructor
  · rintro ⟨metadata, extracted, rfl⟩
    refine ⟨rfl, rfl, ?_, extracted⟩
    dsimp only
  · rintro ⟨owner, place, dependencies, extracted⟩
    refine ⟨_, extracted, ?_⟩
    rw [← dependencies, ← owner, ← place]

def foundComponents (tree : FileTree) (survey : Survey) : List Snapshot.ComponentNode :=
  survey.projects.flatMap fun project =>
    (filesOf tree project).flatMap fun found => (Scan.file survey project found).components

theorem components_ofSurvey : (ofSurvey tree survey).components =
    Snapshot.canonicalComponents (foundComponents tree survey) := by
  simp only [ofSurvey, join, Snapshot.assemble, project, List.flatMap_map, foundComponents]

theorem mem_foundComponents (made : survey.Made tree root registry) (proper : tree.Proper)
    {component : Snapshot.ComponentNode} :
    component ∈ foundComponents tree survey ↔ ∃ project found,
      survey.HasFile tree project found component.filePath ∧
      survey.IsComponent project found component := by
  rw [foundComponents, List.mem_flatMap]
  constructor
  · rintro ⟨project, member, inside⟩
    rcases List.mem_flatMap.mp inside with ⟨found, listed, inside⟩
    have ⟨path, hasFile⟩ := exists_hasFile made proper member listed
    have ⟨owner, place, dependencies, extracted⟩ := (mem_components_file hasFile.path).mp inside
    rw [← place] at hasFile extracted
    refine ⟨project, found, hasFile, owner, extracted, fun target => ?_, ?_⟩
    · rw [dependencies]
      exact mem_dependenciesOf made
    · rw [dependencies]
      exact Order.distinct_increasing _
  · rintro ⟨project, found, hasFile, isComponent⟩
    refine ⟨project, hasFile.isMember, List.mem_flatMap.mpr
      ⟨found, mem_filesOf.mpr hasFile.listed, ?_⟩⟩
    refine (mem_components_file hasFile.path).mpr
      ⟨isComponent.owner, rfl, ?_, isComponent.metadata⟩
    refine isComponent.increasing.eq_of_mem_iff (Order.distinct_increasing _) ?_
    exact fun target => (isComponent.dependencies target).trans (mem_dependenciesOf made).symm

theorem canonical_eq_of_isComponent {project : Project} {found : Source.Found}
    {component : Snapshot.ComponentNode} (isComponent : survey.IsComponent project found component) :
    component.canonical = component := by
  have dependencies : Snapshot.canonicalDependencies component.project component.dependencies =
      component.dependencies := by
    refine List.Pairwise.eq_of_mem_iff (Order.distinct_increasing _) isComponent.increasing ?_
    intro target
    rw [Snapshot.canonicalDependencies, Order.mem_distinct, List.mem_filter]
    refine and_iff_left_of_imp fun member => ?_
    have imports := (isComponent.dependencies target).mp member
    rw [isComponent.owner]
    simpa using imports.1
  rw [Snapshot.ComponentNode.canonical, dependencies]

theorem components_exact (made : survey.Made tree root registry) (proper : tree.Proper) :
    (ofSurvey tree survey).components.Perm (foundComponents tree survey) := by
  have canonical : (foundComponents tree survey).map Snapshot.ComponentNode.canonical =
      foundComponents tree survey := by
    rw [List.map_congr_left (g := id), List.map_id]
    intro component member
    have ⟨project, found, _, isComponent⟩ := (mem_foundComponents made proper).mp member
    exact canonical_eq_of_isComponent isComponent
  rw [components_ofSurvey, Snapshot.canonicalComponents, canonical]
  exact Order.sortOn_perm _ _

theorem foundComponents_once (made : survey.Made tree root registry) (plain : tree.Plain)
    (rooted : Path.Rooted root.toList rootNames) :
    (foundComponents tree survey).Pairwise fun left right =>
      ¬(left.project = right.project ∧ left.filePath = right.filePath) := by
  rw [foundComponents, List.pairwise_flatMap]
  refine ⟨fun project member => ?_, made.increasing.imp_of_mem ?_⟩
  · rw [List.pairwise_flatMap]
    refine ⟨fun found _ => ?_, (paths_of_filesOf made plain rooted member).imp_of_mem ?_⟩
    · rw [Scan.file]
      cases Source.Component.extract? _ _ <;> simp
    · intro left right leftMember rightMember different one oneMember other otherMember same
      have ⟨_, leftHas⟩ := exists_hasFile made plain.proper member leftMember
      have ⟨_, rightHas⟩ := exists_hasFile made plain.proper member rightMember
      have ⟨_, onePlace, _⟩ := (mem_components_file leftHas.path).mp oneMember
      have ⟨_, otherPlace, _⟩ := (mem_components_file rightHas.path).mp otherMember
      refine different ?_
      rw [leftHas.path, rightHas.path, ← onePlace, ← otherPlace, same.2]
  · intro left right leftMember rightMember below one oneMember other otherMember same
    rcases List.mem_flatMap.mp oneMember with ⟨found, listed, oneMember⟩
    rcases List.mem_flatMap.mp otherMember with ⟨next, nextListed, otherMember⟩
    have ⟨_, leftHas⟩ := exists_hasFile made plain.proper leftMember listed
    have ⟨_, rightHas⟩ := exists_hasFile made plain.proper rightMember nextListed
    have ⟨oneOwner, _⟩ := (mem_components_file leftHas.path).mp oneMember
    have ⟨otherOwner, _⟩ := (mem_components_file rightHas.path).mp otherMember
    rw [← oneOwner, ← otherOwner, same.1] at below
    exact String.lt_irrefl _ below

/-! ## The snapshot -/

theorem files_of_mem_edges {edge : Snapshot.Edge} (member : edge ∈ (ofSurvey tree survey).edges) :
    edge.files ≠ [] ∧ edge.files.Pairwise (· < ·) := by
  rw [edges_ofSurvey] at member
  have merged := (Snapshot.mem_canonicalEdges.mp member).1
  refine ⟨Snapshot.files_mergeEdges (fun raw inside => ?_) merged, Snapshot.files_increasing merged⟩
  rcases List.mem_flatMap.mp inside with ⟨project, _, inside⟩
  rcases List.mem_flatMap.mp inside with ⟨found, _, inside⟩
  rw [edges_file] at inside
  rcases List.mem_map.mp inside with ⟨target, _, rfl⟩
  exact List.cons_ne_nil _ _

/-- What is scanned from a survey is exactly the graph that is declared. -/
theorem exact_of_made (made : survey.Made tree root registry) (plain : tree.Plain)
    (rooted : Path.Rooted root.toList rootNames) :
    Exact tree registry survey (ofSurvey tree survey) where
  projects := Project.names_of_loadAll made.projects
  edges := fun _ _ _ => edges_exact made plain.proper
  components := fun _ => by
    rw [(components_exact made plain.proper).mem_iff]
    exact mem_foundComponents made plain.proper
  edgesOnce := (Snapshot.canonicalEdges_increasing _).imp Std.ne_of_lt
  filesOnce := fun edge member => (files_of_mem_edges member).2.imp Std.ne_of_lt
  componentsOnce := by
    refine (components_exact made plain.proper).symm.pairwise
      (foundComponents_once made plain rooted) ?_
    exact fun different same => different ⟨same.1.symm, same.2.symm⟩
  namesOnce := fun _ member _ otherMember same => made.project_eq member otherMember same
  pathsOnce := fun _ _ _ _ hasFile otherHasFile => found_eq made plain rooted hasFile otherHasFile

theorem made_of_run {snapshot : Snapshot} (scanned : run tree root = .ok snapshot) :
    ∃ registry survey, survey.Made tree root registry ∧ snapshot = ofSurvey tree survey := by
  rcases map_eq_ok.mp scanned with ⟨survey, surveyed, rfl⟩
  have ⟨registry, made⟩ := Survey.made_of_make surveyed
  exact ⟨registry, survey, made, rfl⟩

/-- Whenever a scan of a workspace in a plain tree succeeds, its snapshot is exactly the graph that
the sources declare. -/
theorem run_exact {directory path : String} {snapshot : Snapshot} (plain : tree.Plain)
    (absolute : directory.toList.head? = some '/')
    (scanned : run tree (Path.absolute directory path) = .ok snapshot) :
    ∃ registry survey, survey.Made tree (Path.absolute directory path) registry ∧
      Exact tree registry survey snapshot := by
  rcases made_of_run scanned with ⟨registry, survey, made, rfl⟩
  have ⟨_, rooted⟩ := Path.absolute_rooted path absolute
  exact ⟨registry, survey, made, exact_of_made made plain rooted⟩

def pairTree : FileTree :=
  let config :=
    "\x7b\"projects\":\x7b\"a\":\x7b\"root\":\"a\"\x7d,\"b\":\x7b\"root\":\"b\"\x7d\x7d\x7d"
  let source := "import '../b/y' @Component(\x7b\x7d)"
  .directory [("w", .directory [
    ("a", .directory [("x.ts", .file (Text.Utf8.encode source))]),
    ("angular.json", .file (Text.Utf8.encode config))])]

def pairSnapshot : Snapshot where
  workspaceConfigPath := "angular.json"
  projects := [
    ⟨"a", .application, "a", none, "angular.json", ["b"]⟩,
    ⟨"b", .application, "b", none, "angular.json", []⟩]
  libraries := []
  components := [⟨"X", none, none, none, "a", "a/x.ts", ["b"]⟩]
  edges := [⟨"a", "b", ["a/x.ts"]⟩]

theorem plain_pairTree : pairTree.Plain := by
  refine .directory _ (by decide) (by decide) (List.forall_mem_singleton.mpr ?_)
  refine .directory _ (by decide) (by decide) (List.forall_mem_cons.mpr
    ⟨?_, List.forall_mem_singleton.mpr (.file _)⟩)
  exact .directory _ (by decide) (by decide) (List.forall_mem_singleton.mpr (.file _))

theorem run_pairTree : run pairTree (Path.absolute "/" "w") = .ok pairSnapshot := by
  have evaluated : (run pairTree (Path.absolute "/" "w")).toOption = some pairSnapshot := by
    decide +kernel
  cases result : run pairTree (Path.absolute "/" "w") with
  | error error => simp [result, Except.toOption] at evaluated
  | ok snapshot => simpa [result, Except.toOption] using evaluated

theorem run_exact_pairTree :
    ∃ registry survey, survey.Made pairTree (Path.absolute "/" "w") registry ∧
      Exact pairTree registry survey pairSnapshot :=
  run_exact plain_pairTree rfl run_pairTree

end Scan

end WorkspaceGraph
