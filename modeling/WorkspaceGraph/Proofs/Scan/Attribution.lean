import WorkspaceGraph.Proofs.Scan.Graph
/-!
To whom a scan attributes a file, and who owns it. A file is attributed to every project below whose
scan root it lies. It is owned by the project with the longest root around it, and that is another
one where roots are nested or a scan root lies outside its project.
-/

namespace WorkspaceGraph

def Snapshot.Attributes (snapshot : Snapshot) (project file : String) : Prop :=
  (∃ target, Listed snapshot.edges project target file) ∨
    ∃ component ∈ snapshot.components, component.project = project ∧ component.filePath = file

/-- The project's sources lie in its root, and no other project's root does. -/
structure Project.Alone (projects : List Project) (project : Project) : Prop where
  sources : Path.isWithin project.absoluteScanRootPath project.absoluteRootPath = true
  others : ∀ other ∈ projects,
    Path.isWithin other.absoluteRootPath project.absoluteRootPath = true → other = project

/-- A file that is attributed to a project lies below its scan root. The project owns it if its root
is around the file and comes first among the roots that are; that is so if the project is alone. -/
structure Survey.Attribution (tree : FileTree) (survey : Survey) (project : Project)
    (found : Source.Found) (file : String) : Prop where
  hasFile : survey.HasFile tree project found file
  owned : Project.owner? found.path survey.owners = some project.name ↔
    project.Holds found.path ∧
      ∀ other ∈ survey.projects, other.Holds found.path → Project.precedes project other
  alone : project.Alone survey.projects →
    Project.owner? found.path survey.owners = some project.name

namespace Scan

variable {tree : FileTree} {root : String} {registry : Registry} {survey : Survey}
  {project : Project} {found : Source.Found} {file : String}

theorem exists_of_attributes (made : survey.Made tree root registry) (proper : tree.Proper)
    {source : String} (attributed : (ofSurvey tree survey).Attributes source file) :
    ∃ project found, survey.HasFile tree project found file ∧ project.name = source := by
  rcases attributed with ⟨target, listed⟩ | ⟨component, member, owner, place⟩
  · rcases (edges_exact made proper).mp listed with ⟨project, found, hasFile, named, _⟩
    exact ⟨project, found, hasFile, named⟩
  · have inside := (components_exact made proper).mem_iff.mp member
    rcases (mem_foundComponents made proper).mp inside with ⟨project, found, hasFile, isComponent⟩
    exact ⟨project, found, place ▸ hasFile, isComponent.owner.symm.trans owner⟩

theorem owner?_eq_iff (made : survey.Made tree root registry) (member : project ∈ survey.projects)
    {path : String} : Project.owner? path survey.owners = some project.name ↔
      Project.Owns survey.projects path project := by
  rw [made.owners_eq, Project.owner?_eq_some_iff]
  constructor
  · intro owned
    rcases owned with ⟨other, owns, named⟩
    rwa [← made.project_eq owns.isMember member named]
  · exact fun owns => ⟨project, owns, rfl⟩

theorem owns_of_alone (made : survey.Made tree root registry) (proper : tree.Proper)
    (hasFile : survey.HasFile tree project found file) (alone : project.Alone survey.projects) :
    Project.Owns survey.projects found.path project := by
  have placed := made.placed hasFile.isMember
  have forward : ∀ {other : Project}, other.Placed root → '\\' ∉ other.absoluteRootPath.toList := by
    intro other otherPlaced
    rw [otherPlaced.root_eq, Path.resolve, Path.absoluteForm, String.toList_ofList]
    exact Path.not_mem_absoluteFormChars _
  have within : Path.isWithin found.path project.absoluteRootPath = true :=
    Path.isWithin_trans
      (within_of_mem_filesOf made proper hasFile.isMember (mem_filesOf.mpr hasFile.listed))
      alone.sources
  have holds : project.Holds found.path :=
    Path.isWithin_absoluteForm placed.root_trimmed (forward placed) within
  refine ⟨hasFile.isMember, holds, fun other member otherHolds => ?_⟩
  have otherPlaced := made.placed member
  have same : other = project → Project.precedes project other = true := by
    intro same
    rw [same]
    exact (Project.precedes_total project project).elim id id
  rcases Path.isWithin_or_isWithin otherPlaced.root_trimmed placed.root_trimmed otherHolds holds with
    inside | around
  · exact same (alone.others other member inside)
  · cases back : Path.isWithin other.absoluteRootPath project.absoluteRootPath with
    | true => exact same (alone.others other member back)
    | false =>
        exact Project.precedes_iff.mpr
          (.inl (Path.length_lt_of_isWithin otherPlaced.root_trimmed around back))

theorem attribution_of_hasFile (made : survey.Made tree root registry) (proper : tree.Proper)
    (hasFile : survey.HasFile tree project found file) :
    survey.Attribution tree project found file where
  hasFile := hasFile
  owned := by
    rw [owner?_eq_iff made hasFile.isMember]
    exact ⟨fun owns => ⟨owns.holds, owns.first⟩,
      fun first => ⟨hasFile.isMember, first.1, first.2⟩⟩
  alone := fun alone =>
    (owner?_eq_iff made hasFile.isMember).mpr (owns_of_alone made proper hasFile alone)

/-- Whenever a scan succeeds, the files in its snapshot are attributed by where they lie. -/
theorem run_attributes {snapshot : Snapshot} (proper : tree.Proper)
    (scanned : run tree root = .ok snapshot) :
    ∃ registry, ∃ survey : Survey, survey.Made tree root registry ∧
      ∀ source file, snapshot.Attributes source file →
        ∃ project found, project.name = source ∧ survey.Attribution tree project found file := by
  rcases made_of_run scanned with ⟨registry, survey, made, rfl⟩
  refine ⟨registry, survey, made, fun source file attributed => ?_⟩
  have ⟨project, found, hasFile, named⟩ := exists_of_attributes made proper attributed
  exact ⟨project, found, named, attribution_of_hasFile made proper hasFile⟩

theorem run_attributes_pairTree : pairSnapshot.Attributes "a" "a/x.ts" ∧
    ∃ registry, ∃ survey : Survey, survey.Made pairTree (Path.absolute "/" "w") registry ∧
      ∀ source file, pairSnapshot.Attributes source file → ∃ project found,
        project.name = source ∧ survey.Attribution pairTree project found file :=
  ⟨.inr ⟨_, List.mem_singleton.mpr rfl, rfl, rfl⟩,
    run_attributes plain_pairTree.proper run_pairTree⟩

/-! ## Nested roots -/

def nestedTree : FileTree :=
  let config :=
    "\x7b\"projects\":\x7b\"a\":\x7b\"root\":\"a\"\x7d,\"b\":\x7b\"root\":\"a/b\"\x7d\x7d\x7d"
  .directory [("w", .directory [
    ("a", .directory [("b", .directory [("x.ts", .file (Text.Utf8.encode "import './y'"))])]),
    ("angular.json", .file (Text.Utf8.encode config))])]

theorem plain_nestedTree : nestedTree.Plain := by
  refine .directory _ (by decide) (by decide) (List.forall_mem_singleton.mpr ?_)
  refine .directory _ (by decide) (by decide) (List.forall_mem_cons.mpr
    ⟨?_, List.forall_mem_singleton.mpr (.file _)⟩)
  refine .directory _ (by decide) (by decide) (List.forall_mem_singleton.mpr ?_)
  exact .directory _ (by decide) (by decide) (List.forall_mem_singleton.mpr (.file _))

/-- The file of the inner project is attributed to the outer one, which then depends on the inner
one. -/
theorem attributes_nestedTree : nestedTree.Plain ∧ ∃ survey snapshot,
    Survey.make nestedTree (Path.absolute "/" "w") = .ok survey ∧
    run nestedTree (Path.absolute "/" "w") = .ok snapshot ∧
    snapshot.edges = [⟨"a", "b", ["a/b/x.ts"]⟩] ∧
    Project.owner? (Path.resolve survey.root ["a/b/x.ts"]) survey.owners = some "b" := by
  refine ⟨plain_nestedTree, ?_⟩
  have evaluated : (Survey.make nestedTree (Path.absolute "/" "w")).toOption.map (fun survey =>
      ((ofSurvey nestedTree survey).edges,
        Project.owner? (Path.resolve survey.root ["a/b/x.ts"]) survey.owners)) =
      some ([⟨"a", "b", ["a/b/x.ts"]⟩], some "b") := by
    decide +kernel
  cases surveyed : Survey.make nestedTree (Path.absolute "/" "w") with
  | error error =>
      rw [surveyed] at evaluated
      cases evaluated
  | ok survey =>
      rw [surveyed] at evaluated
      have ⟨edges, owner⟩ := Prod.mk.inj (Option.some.inj evaluated)
      exact ⟨survey, ofSurvey nestedTree survey, rfl, by rw [run, surveyed]; rfl, edges, owner⟩

end Scan

end WorkspaceGraph
