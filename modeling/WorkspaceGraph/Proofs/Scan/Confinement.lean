import WorkspaceGraph.Proofs.Path.Below
import WorkspaceGraph.Proofs.Scan.Attribution
/-!
A scan stays in its workspace. Whatever the registry says, the roots of all projects lie below the
workspace's root, and the path under which a file is recorded leads from there to the file that was
read, and to no other.
-/

namespace WorkspaceGraph

variable {tree : FileTree} {root : String} {registry : Registry} {survey : Survey}

theorem Project.Placed.below {project : Project} (placed : project.Placed root)
    (base : Path.IsBase root) : Path.Below root project.absoluteRootPath ∧
      Path.Below root project.absoluteScanRootPath := by
  have rootInside := placed.rootInside
  have scanRootInside := placed.scanRootInside
  rw [placed.root_eq] at rootInside ⊢
  rw [placed.scanRoot_eq] at scanRootInside ⊢
  exact ⟨Path.below_of_isWithin base placed.forward rootInside,
    Path.below_of_isWithin base placed.sourceForward scanRootInside⟩

namespace Survey

structure Locates (root : String) (found : Source.Found) (file : String) : Prop where
  relative : Path.IsRelative file
  resolved : Path.resolve root [file] = found.path

theorem HasFile.locates {project : Project} {found : Source.Found} {file : String}
    (hasFile : survey.HasFile tree project found file) (made : survey.Made tree root registry)
    (proper : tree.Proper) (base : Path.IsBase root) (forward : '\\' ∉ found.path.toList) :
    Locates root found file := by
  have placed := made.placed hasFile.isMember
  have ⟨rootNames, notEmpty, rootRooted, spelled⟩ := base.rooted
  have ⟨scanNames, scanRoot⟩ := Path.resolve_normal base.absolute base.forward placed.sourceForward
  rw [← placed.scanRoot_eq] at scanRoot
  have inside := placed.scanRootInside
  rw [base.absoluteForm_eq] at inside
  have ⟨files, listed, member⟩ := hasFile.listed
  have ⟨below, source, isSource, last, located⟩ :=
    Source.filesBelow_rooted proper scanRoot.toRooted listed member
  have within := Path.isWithin_trans
    (Scan.within_of_mem_filesOf made proper hasFile.isMember (Scan.mem_filesOf.mpr hasFile.listed))
    inside
  have ⟨rest, whole, path⟩ := located.eq_slashed rootRooted notEmpty spelled within
  have ⟨between, scanWhole⟩ := scanRoot.names_of_isWithin rootRooted inside
  have rest_eq : between ++ below = rest := by
    rw [scanWhole, List.append_assoc] at whole
    exact List.append_cancel_left whole
  have ends : rest.getLast? = some source.toList := by
    rw [← rest_eq, List.getLast?_append, last, Option.some_or]
  have restSome : rest ≠ [] := by
    rintro rfl
    cases ends
  have isName : ∀ name ∈ rest, Path.IsName name := fun name inside =>
    located.isName name (whole ▸ List.mem_append_right _ inside)
  have normal : Path.Normal found.path (scanNames ++ below) := ⟨located, forward⟩
  have recorded : Path.relativeTo root found.path = some (String.ofList (Path.unsplit rest)) := by
    refine Path.Normal.relativeTo_eq rootRooted (whole ▸ normal) restSome ?_
    rw [ends]
    exact fun newline => Source.ne_newline_of_isSourceFile isSource (Option.some.inj newline)
  have file_eq : file = String.ofList (Path.unsplit rest) := by
    have path := hasFile.path
    rw [made.root_eq, recorded] at path
    exact (Option.some.inj path).symm
  subst file_eq
  refine ⟨⟨rest, restSome, isName, String.toList_ofList⟩, ?_⟩
  exact Path.resolve_unsplit normal isName restSome rootRooted notEmpty whole path

end Survey

namespace Scan

/-- Every file of a snapshot was read below the scan root of its project, and the path it is
recorded under is one that leads to this file alone. -/
structure Confined (tree : FileTree) (root : String) (survey : Survey) (snapshot : Snapshot) :
    Prop where
  recorded : ∀ source file, snapshot.Attributes source file →
    ∃ project found, project.name = source ∧ survey.HasFile tree project found file
  located : ∀ project found file, survey.HasFile tree project found file →
    '\\' ∉ found.path.toList → Survey.Locates root found file
  apart : ∀ project found file other next otherFile, survey.HasFile tree project found file →
    survey.HasFile tree other next otherFile → '\\' ∉ found.path.toList →
    '\\' ∉ next.path.toList → found.path ≠ next.path → file ≠ otherFile

theorem confined_of_made (made : survey.Made tree root registry) (proper : tree.Proper)
    (base : Path.IsBase root) : Confined tree root survey (ofSurvey tree survey) where
  recorded := fun source file attributed => by
    have ⟨project, found, hasFile, named⟩ := exists_of_attributes made proper attributed
    exact ⟨project, found, named, hasFile⟩
  located := fun project found file hasFile forward => hasFile.locates made proper base forward
  apart := fun project found file other next otherFile hasFile otherHasFile forward nextForward
      different same => by
    have located := (hasFile.locates made proper base forward).resolved
    have nextLocated := (otherHasFile.locates made proper base nextForward).resolved
    rw [same, nextLocated] at located
    exact different located.symm

/-- Nothing outside a workspace is scanned: whatever its registry holds, the roots of all projects
are below its own, and so is every file that a scan records. -/
theorem run_confined (base : Path.IsBase root) (proper : tree.Proper) :
    (∀ registry projects, Project.loadAll tree root registry = .ok projects →
      ∀ project ∈ projects, Path.Below root project.absoluteRootPath ∧
        Path.Below root project.absoluteScanRootPath) ∧
    ∀ snapshot, run tree root = .ok snapshot → ∃ registry, ∃ survey : Survey,
      survey.Made tree root registry ∧ Confined tree root survey snapshot := by
  refine ⟨fun registry projects loaded project member => ?_, fun snapshot scanned => ?_⟩
  · exact (Project.placed_of_loadAll loaded project member).below base
  · rcases made_of_run scanned with ⟨registry, survey, made, rfl⟩
    exact ⟨registry, survey, made, confined_of_made made proper base⟩

theorem run_confined_pairTree : Path.IsBase "/w" ∧ run pairTree "/w" = .ok pairSnapshot ∧
    (∀ registry projects, Project.loadAll pairTree "/w" registry = .ok projects →
      ∀ project ∈ projects, Path.Below "/w" project.absoluteRootPath ∧
        Path.Below "/w" project.absoluteScanRootPath) ∧
    ∃ registry, ∃ survey : Survey, survey.Made pairTree "/w" registry ∧
      Confined pairTree "/w" survey pairSnapshot := by
  have base : Path.IsBase "/w" := by decide
  have scanned : run pairTree "/w" = .ok pairSnapshot := run_pairTree
  have confined := run_confined base plain_pairTree.proper
  exact ⟨base, scanned, confined.1, confined.2 pairSnapshot scanned⟩

end Scan

end WorkspaceGraph
