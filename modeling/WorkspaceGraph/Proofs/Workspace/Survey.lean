import WorkspaceGraph.Scan
import WorkspaceGraph.Proofs.FileTree
import WorkspaceGraph.Proofs.Json.Names
import WorkspaceGraph.Proofs.Path.Within
import WorkspaceGraph.Proofs.Result
import WorkspaceGraph.Proofs.Workspace.Ownership
/-!
What a survey finds: the projects of the registry by name, each at its place inside the workspace,
and rules that lead to them.
-/

namespace WorkspaceGraph

variable {tree : FileTree} {root : String}

/-! ## The registry -/

theorem find_of_readText? {path text : String} (read : tree.readText? path = some text) :
    ∃ content, tree.find path = .ok (.file content) := by
  rw [FileTree.readText?] at read
  split at read
  · exact ⟨_, ‹_›⟩
  · cases read

namespace Registry

variable {registry : Registry}

theorem names_of_ofConfig {config : String} {value : Json} (distinct : value.Distinct)
    (made : ofConfig config value = .ok registry) : Json.DistinctNames registry.entries := by
  cases distinct with
  | record fields names each =>
      rw [ofConfig] at made
      split at made
      · rename_i entries found
        cases made
        cases each _ (Json.mem_of_lookup found) with
        | record _ names each => exact names
      · cases made
  | _ => cases made

theorem of_loadFirst {candidates : List String}
    (loaded : loadFirst tree root candidates = .ok registry) :
    Json.DistinctNames registry.entries ∧ ∃ candidate ∈ candidates, ∃ content,
      tree.find (Path.join root candidate) = .ok (.file content) := by
  induction candidates with
  | nil => cases loaded
  | cons candidate rest induction =>
      unfold loadFirst at loaded
      dsimp only at loaded
      split at loaded
      · have ⟨names, other, member, found⟩ := induction loaded
        exact ⟨names, other, List.mem_cons_of_mem _ member, found⟩
      · rename_i text read
        rcases bind_eq_ok.mp loaded with ⟨value, config, made⟩
        have ⟨content, led⟩ := find_of_readText? read
        refine ⟨?_, candidate, List.mem_cons_self .., content, led⟩
        rw [readConfig] at config
        split at config
        · cases config
          exact names_of_ofConfig (Json.distinct_of_parse ‹_›) made
        · cases config

end Registry

theorem Registry.forward_of_load {registry : Registry} (plain : tree.Plain)
    (loaded : load tree root = .ok registry) : '\\' ∉ root.toList := by
  have ⟨_, candidate, member, content, led⟩ := of_loadFirst loaded
  have relative : ∀ candidate ∈ WorkspaceError.candidates, candidate.toList.head? ≠ some '/' := by
    decide
  intro inside
  refine FileTree.forward_of_find plain led ?_
  rw [Path.join, String.toList_ofList, Path.joinChars,
    if_neg (by simpa using relative candidate member)]
  split
  · exact List.mem_append_left _ inside
  · exact List.mem_append_left _ inside

namespace Project

/-! ## Projects -/

structure Placed (root : String) (project : Project) : Prop where
  root_eq : project.absoluteRootPath = Path.resolve root [project.rootPath]
  scanRoot_eq : project.absoluteScanRootPath =
    Path.resolve root [project.sourceRootPath.getD project.rootPath]
  rootInside : Path.isWithin project.absoluteRootPath (Path.absoluteForm root) = true
  scanRootInside : Path.isWithin project.absoluteScanRootPath (Path.absoluteForm root) = true
  forward : '\\' ∉ project.rootPath.toList
  sourceForward : '\\' ∉ (project.sourceRootPath.getD project.rootPath).toList

theorem Placed.root_trimmed {project : Project} (placed : project.Placed root) :
    Path.Trimmed project.absoluteRootPath := by
  rw [placed.root_eq]
  exact Path.trimmed_absoluteForm _

theorem Placed.scanRoot_trimmed {project : Project} (placed : project.Placed root) :
    Path.Trimmed project.absoluteScanRootPath := by
  rw [placed.scanRoot_eq]
  exact Path.trimmed_absoluteForm _

theorem withoutEnding?_eq_some_iff {text ending rest : String} :
    withoutEnding? text ending = some rest ↔ text = rest ++ ending := by
  rw [withoutEnding?]
  constructor
  · intro cut
    split at cut
    · rename_i ends
      rcases List.isSuffixOf_iff_suffix.mp ends with ⟨front, whole⟩
      have kept : text.toList.take (text.length - ending.length) = front := by
        rw [← String.length_toList, ← String.length_toList, ← whole, List.length_append,
          Nat.add_sub_cancel, List.take_left]
      rw [kept] at cut
      refine String.toList_injective ?_
      rw [← Option.some.inj cut, String.toList_append, String.toList_ofList, whole]
    · cases cut
  · rintro rfl
    have ends : ending.toList.isSuffixOf (rest ++ ending).toList = true := by
      rw [List.isSuffixOf_iff_suffix, String.toList_append]
      exact List.suffix_append ..
    rw [if_pos ends, String.toList_append, String.length_append, Nat.add_sub_cancel,
      ← String.length_toList, List.take_left, String.ofList_toList]

theorem forward_of_withoutEnding? {text ending rest : String}
    (cut : withoutEnding? text ending = some rest) (forward : '\\' ∉ text.toList) :
    '\\' ∉ rest.toList := by
  rw [withoutEnding?_eq_some_iff.mp cut, String.toList_append] at forward
  exact fun member => forward (List.mem_append_left _ member)

theorem not_mem_referencePath (reference : String) : '\\' ∉ (referencePath reference).toList := by
  rw [referencePath]
  exact Path.not_mem_relativeForm _

theorem forward_of_followReference {name reference rootPath : String} {found : Definition}
    (followed : followReference tree root name reference = .ok found)
    (given : found.defaultRoot = some rootPath) : '\\' ∉ rootPath.toList := by
  unfold followReference at followed
  dsimp only at followed
  split at followed
  · cases followed
  split at followed
  · cases followed
  · cases followed
    dsimp only at given
    exact forward_of_withoutEnding? given (not_mem_referencePath reference)
  · cases followed

theorem forward_of_definition {config name rootPath : String} {entry : Json} {found : Definition}
    (defined : definition tree root config name entry = .ok found)
    (given : found.defaultRoot = some rootPath) : '\\' ∉ rootPath.toList := by
  unfold definition at defined
  split at defined
  · exact forward_of_followReference defined given
  · cases defined
    cases given
  · cases defined

theorem forward_of_rootOf {config name rootPath : String} {entry : Json} {found : Definition}
    (defined : definition tree root config name entry = .ok found)
    (declared : rootOf found = some rootPath) : '\\' ∉ rootPath.toList := by
  rw [rootOf] at declared
  split at declared
  · cases declared
    exact Path.not_mem_relativeForm _
  · exact forward_of_definition defined (Option.filter_eq_some_iff.mp declared).1

theorem forward_of_sourceRootOf {found : Definition} {sourceRoot : String}
    (declared : sourceRootOf found = some sourceRoot) : '\\' ∉ sourceRoot.toList := by
  rw [sourceRootOf] at declared
  split at declared
  · split at declared
    · cases declared
      exact Path.not_mem_relativeForm _
    · cases declared
  · cases declared

theorem isWithin_of_requireInside {name target : String}
    (inside : requireInside root name target = .ok ()) :
    Path.isWithin target (Path.absoluteForm root) = true := by
  rw [requireInside] at inside
  split at inside
  · assumption
  · cases inside

theorem of_resolve {config name : String} {entry : Json} {project : Project}
    (resolved : resolve tree root config name entry = .ok project) :
    project.name = name ∧ project.Placed root := by
  rw [resolve] at resolved
  rcases bind_eq_ok.mp resolved with ⟨found, defined, resolved⟩
  split at resolved
  · cases resolved
  · rename_i rootPath declared
    rcases bind_eq_ok.mp resolved with ⟨_, inside, resolved⟩
    rcases bind_eq_ok.mp resolved with ⟨_, scanInside, resolved⟩
    cases resolved
    have forward := forward_of_rootOf defined declared
    have sourceForward : '\\' ∉ ((sourceRootOf found).getD rootPath).toList := by
      cases source : sourceRootOf found with
      | none => exact forward
      | some sourceRoot => exact forward_of_sourceRootOf source
    exact ⟨rfl, rfl, rfl, isWithin_of_requireInside inside, isWithin_of_requireInside scanInside,
      forward, sourceForward⟩

theorem of_resolveAll {config : String} {entries : List (String × Json)} {projects : List Project}
    (resolved : resolveAll tree root config entries = .ok projects) :
    projects.map (·.name) = entries.map (·.1) ∧ ∀ project ∈ projects, project.Placed root := by
  induction entries generalizing projects with
  | nil =>
      cases resolved
      exact ⟨rfl, by simp⟩
  | cons entry rest induction =>
      rw [resolveAll] at resolved
      rcases bind_eq_ok.mp resolved with ⟨first, firstResolved, resolved⟩
      rcases bind_eq_ok.mp resolved with ⟨others, othersResolved, same⟩
      cases same
      have firstPlaced := of_resolve firstResolved
      have othersPlaced := induction othersResolved
      refine ⟨?_, List.forall_mem_cons.mpr ⟨firstPlaced.2, othersPlaced.2⟩⟩
      rw [List.map_cons, List.map_cons, firstPlaced.1, othersPlaced.1]

variable {registry : Registry} {projects : List Project}

theorem placed_of_loadAll (loaded : loadAll tree root registry = .ok projects) :
    ∀ project ∈ projects, project.Placed root :=
  (of_resolveAll loaded).2

theorem names_of_loadAll (loaded : loadAll tree root registry = .ok projects) :
    (projects.map (·.name)).Perm (registry.entries.map (·.1)) := by
  rw [(of_resolveAll loaded).1]
  exact (Order.sortOn_perm _ _).map _

theorem increasing_of_loadAll (distinct : Json.DistinctNames registry.entries)
    (loaded : loadAll tree root registry = .ok projects) :
    projects.Pairwise fun left right => left.name < right.name := by
  have sorted := List.pairwise_map.mpr (Order.sortOn_names_increasing distinct)
  rw [← (of_resolveAll loaded).1] at sorted
  exact List.pairwise_map.mp sorted

end Project

/-! ## Rules -/

theorem Project.exists_of_owner? {projects : List Project} {path name : String}
    (owned : owner? path projects = some name) : ∃ project ∈ projects, project.name = name := by
  rcases Option.map_eq_some_iff.mp owned with ⟨project, found, named⟩
  exact ⟨project, List.mem_of_find?_eq_some found, named⟩

namespace AliasRule

theorem sort_eq_insertionSort (rules : List AliasRule) :
    sort rules = rules.insertionSort fun left right => precedes left right = true := by
  have insert : ∀ rule rules, insertInOrder rule rules =
      rules.orderedInsert (fun left right => precedes left right = true) rule := by
    intro rule rules
    induction rules with
    | nil => rfl
    | cons next rest induction => rw [insertInOrder, List.orderedInsert_cons, induction]
  induction rules with
  | nil => rfl
  | cons rule rest induction => rw [sort, insert, induction, List.insertionSort_cons]

theorem sort_perm (rules : List AliasRule) : (sort rules).Perm rules := by
  rw [sort_eq_insertionSort]
  exact List.perm_insertionSort ..

theorem dropRepeated_sublist (rules : List AliasRule) : (dropRepeated rules).Sublist rules := by
  induction rules with
  | nil => exact .slnil
  | cons first rest induction =>
      cases rest with
      | nil => exact .refl _
      | cons next more =>
          rw [dropRepeated]
          split
          · exact induction.cons first
          · exact induction.cons_cons first

theorem exists_of_mem_load {projects : List Project} {rules : List AliasRule}
    (loaded : load tree root projects = .ok rules) {rule : AliasRule} (member : rule ∈ rules) :
    ∃ project ∈ projects, project.name = rule.project := by
  rcases map_eq_ok.mp loaded with ⟨mappings, -, rfl⟩
  have sorted := (sort_perm _).mem_iff.mp ((dropRepeated_sublist _).subset member)
  rcases List.mem_filterMap.mp sorted with ⟨mapping, -, made⟩
  rw [ofMapping?] at made
  split at made
  · split at made
    · cases made
    split at made
    · cases made
    · rcases Option.map_eq_some_iff.mp made with ⟨name, found, rfl⟩
      rcases List.exists_of_findSome?_eq_some found with ⟨target, -, owned⟩
      unfold targetOwner? at owned
      split at owned
      · split at owned
        · cases owned
        · exact Project.exists_of_owner? owned
      · cases owned
  · cases made

end AliasRule

/-! ## Surveys -/

namespace Survey

structure Made (tree : FileTree) (root : String) (registry : Registry) (survey : Survey) :
    Prop where
  root_eq : survey.root = root
  config_eq : survey.config = registry.config
  loaded : Registry.load tree root = .ok registry
  projects : Project.loadAll tree root registry = .ok survey.projects
  owners_eq : survey.owners = Project.sortByRoot survey.projects
  rules : AliasRule.load tree root (Project.sortByRoot survey.projects) = .ok survey.rules

theorem made_of_make {survey : Survey} (made : make tree root = .ok survey) :
    ∃ registry, survey.Made tree root registry := by
  rcases bind_eq_ok.mp made with ⟨registry, loaded, made⟩
  rcases bind_eq_ok.mp made with ⟨projects, projectsLoaded, made⟩
  rcases bind_eq_ok.mp made with ⟨rules, rulesLoaded, same⟩
  cases same
  exact ⟨registry, rfl, rfl, loaded, projectsLoaded, rfl, rulesLoaded⟩

namespace Made

variable {registry : Registry} {survey : Survey}

theorem increasing (made : survey.Made tree root registry) :
    survey.projects.Pairwise fun left right => left.name < right.name :=
  Project.increasing_of_loadAll (Registry.of_loadFirst made.loaded).1 made.projects

theorem project_eq (made : survey.Made tree root registry) {project other : Project}
    (member : project ∈ survey.projects) (otherMember : other ∈ survey.projects)
    (same : project.name = other.name) : project = other := by
  have distinct : (survey.projects.map (·.name)).Nodup :=
    List.pairwise_map.mpr (made.increasing.imp Std.ne_of_lt)
  exact List.inj_on_of_nodup_map distinct member otherMember same

theorem placed (made : survey.Made tree root registry) {project : Project}
    (member : project ∈ survey.projects) : project.Placed root :=
  Project.placed_of_loadAll made.projects project member

theorem scanRoot_normal (made : survey.Made tree root registry) (plain : tree.Plain)
    {rootNames : List (List Char)} (rooted : Path.Rooted root.toList rootNames) {project : Project}
    (member : project ∈ survey.projects) :
    ∃ between, Path.Normal project.absoluteScanRootPath (rootNames ++ between) := by
  have placed := made.placed member
  have forward := Registry.forward_of_load plain made.loaded
  rcases Path.resolve_normal rooted.head? forward placed.sourceForward with ⟨names, normal⟩
  rw [← placed.scanRoot_eq] at normal
  have around : Path.Rooted (Path.absoluteForm root).toList rootNames := by
    simpa [Path.absoluteForm] using rooted.absoluteFormChars forward
  rcases normal.names_of_isWithin around placed.scanRootInside with ⟨between, whole⟩
  exact ⟨between, whole ▸ normal⟩

end Made

end Survey

end WorkspaceGraph
