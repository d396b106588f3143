import WorkspaceGraph.Proofs.Path.Resolved
import WorkspaceGraph.Proofs.Path.Straight
import WorkspaceGraph.Proofs.Workspace.Survey
/-!
Types of projects that declare none. The type is told by the first part of the root as it is
spelled, and the place by the path that the root is resolved to. The two agree where the spelling is
straight; a root that is spelled with a detour can be called after a directory that it is not in.
-/

namespace WorkspaceGraph.Project

variable {tree : FileTree} {root config name : String} {entry : Json} {project : Project}

structure Inferred (tree : FileTree) (root config name : String) (entry : Json)
    (project : Project) : Prop where
  canonical : Path.IsCanonical root
  resolved : resolve tree root config name entry = .ok project
  undeclared : ∀ found, definition tree root config name entry = .ok found →
    ((found.fields.field? "projectType").getD .null).text?.bind ProjectType.ofText? = none

def libraryRoot (root : String) : String := Path.resolve root [ProjectType.libraryDirectory]

def IsAmongLibraries (root : String) (project : Project) : Prop :=
  Path.isWithin project.absoluteRootPath (libraryRoot root) = true

instance (root : String) (project : Project) : Decidable (IsAmongLibraries root project) :=
  inferInstanceAs (Decidable (Path.isWithin project.absoluteRootPath (libraryRoot root) = true))

/-! ## The type -/

theorem infer_eq_library_iff {declared : Json} {rootPath : String}
    (undeclared : declared.text?.bind ProjectType.ofText? = none) :
    ProjectType.infer declared rootPath = .library ↔
      (Path.split rootPath.toList).head? = some ProjectType.libraryDirectory.toList := by
  rw [ProjectType.infer, undeclared, Path.head?_split_eq_some (by decide)]
  simp only [Bool.or_eq_true, beq_iff_eq, List.isPrefixOf_iff_prefix, String.toList_inj]
  split
  · rename_i library
    exact iff_of_true rfl library
  · rename_i application
    exact iff_of_false nofun application

theorem Inferred.type_eq_library_iff (inferred : Inferred tree root config name entry project) :
    project.type = .library ↔ (Path.split project.rootPath.toList).head? =
      some ProjectType.libraryDirectory.toList := by
  have resolved := inferred.resolved
  rw [resolve] at resolved
  rcases bind_eq_ok.mp resolved with ⟨found, defined, resolved⟩
  split at resolved
  · cases resolved
  · rcases bind_eq_ok.mp resolved with ⟨_, -, resolved⟩
    rcases bind_eq_ok.mp resolved with ⟨_, -, resolved⟩
    cases resolved
    exact infer_eq_library_iff (inferred.undeclared found defined)

/-! ## The place -/

theorem Inferred.placed (inferred : Inferred tree root config name entry project) :
    project.Placed root := (of_resolve inferred.resolved).2

theorem Inferred.forward (inferred : Inferred tree root config name entry project) :
    ∀ text ∈ [root, project.rootPath], '\\' ∉ text.toList :=
  List.forall_mem_cons.mpr ⟨inferred.canonical.forward,
    List.forall_mem_singleton.mpr inferred.placed.forward⟩

theorem isCanonical_libraryRoot (rootCanonical : Path.IsCanonical root) :
    Path.IsCanonical (libraryRoot root) ∧ Path.components (libraryRoot root).toList =
      Path.components root.toList ++ [ProjectType.libraryDirectory.toList] :=
  rootCanonical.resolve_name (by decide) (by decide)

theorem isAmongLibraries_iff (rootCanonical : Path.IsCanonical root)
    (canonical : Path.IsCanonical project.absoluteRootPath) {below : List (List Char)}
    (whole : Path.components project.absoluteRootPath.toList =
      Path.components root.toList ++ below) :
    IsAmongLibraries root project ↔
      below.head? = some ProjectType.libraryDirectory.toList := by
  have libraries := isCanonical_libraryRoot rootCanonical
  rw [IsAmongLibraries, libraries.1.isWithin_iff_around canonical, Path.Around,
    libraries.2, whole, List.prefix_append_right_inj]
  cases below with
  | nil => simp
  | cons first rest => simp [List.cons_prefix_cons, eq_comm]

/-- The root leads along names from the workspace, the first of which says whether the project is
among the libraries, unless exactly two slashes are in front of it. -/
theorem Inferred.exists_below (inferred : Inferred tree root config name entry project)
    (single : Path.rootSlashes project.rootPath.toList ≠ ['/', '/']) :
    ∃ below, Path.components project.absoluteRootPath.toList =
        Path.components root.toList ++ below ∧
      (IsAmongLibraries root project ↔
        below.head? = some ProjectType.libraryDirectory.toList) := by
  have placed := inferred.placed
  have rootSingle : Path.rootSlashes root.toList ≠ ['/', '/'] := by
    rw [inferred.canonical.rootSlashes_eq]
    decide
  have canonical := Path.isCanonical_resolve inferred.canonical.normal.head? inferred.forward
    (List.forall_mem_cons.mpr ⟨rootSingle, List.forall_mem_singleton.mpr single⟩)
  rw [← placed.root_eq] at canonical
  have inside := placed.rootInside
  rw [inferred.canonical.absoluteForm_eq,
    inferred.canonical.isWithin_iff_around canonical] at inside
  rcases inside with ⟨below, whole⟩
  exact ⟨below, whole.symm, isAmongLibraries_iff inferred.canonical canonical whole.symm⟩

/-- Behind exactly two slashes there is another root, and the libraries are not there. -/
theorem Inferred.not_isAmongLibraries (inferred : Inferred tree root config name entry project)
    (double : Path.rootSlashes project.rootPath.toList = ['/', '/']) :
    ¬IsAmongLibraries root project := by
  have libraries := isCanonical_libraryRoot inferred.canonical
  have notTop : libraryRoot root ≠ "/" := by
    intro top
    have names := libraries.2
    have none : Path.components "/".toList = [] := rfl
    rw [top, none] at names
    exact List.append_ne_nil_of_right_ne_nil _ (List.cons_ne_nil _ _) names.symm
  rw [IsAmongLibraries, inferred.placed.root_eq]
  exact libraries.1.not_isWithin_resolve notTop inferred.canonical.normal.head? inferred.forward
    double

/-- If the root is spelled straight, that name is the first part of it. -/
theorem Inferred.isAmongLibraries_iff_of_straight
    (inferred : Inferred tree root config name entry project)
    (straight : Path.Straight (Path.split project.rootPath.toList)) :
    IsAmongLibraries root project ↔ (Path.split project.rootPath.toList).head? =
      some ProjectType.libraryDirectory.toList := by
  have placed := inferred.placed
  have resolved := inferred.canonical.resolve placed.forward straight.relative
  rcases straight.walk (Path.components root.toList) with ⟨below, walk, same⟩
  rw [← placed.root_eq, walk.resolveDots_eq inferred.canonical.isName] at resolved
  rw [isAmongLibraries_iff inferred.canonical resolved.1 resolved.2, same (by decide)]

/-- A project without a declared type is a library if the first part of its root is the directory of
libraries, so never if the root is absolute. It is among the libraries if the first name on the way
to it is, be its root relative or absolute, and behind exactly two slashes it is not. So its type
says where it is whenever its root is spelled straight. -/
theorem resolve_inferred (inferred : Inferred tree root config name entry project) :
    (project.type = .library ↔ (Path.split project.rootPath.toList).head? =
      some ProjectType.libraryDirectory.toList) ∧
    (Path.rootSlashes project.rootPath.toList ≠ ['/', '/'] →
      ∃ below, Path.components project.absoluteRootPath.toList =
          Path.components root.toList ++ below ∧
        (IsAmongLibraries root project ↔
          below.head? = some ProjectType.libraryDirectory.toList)) ∧
    (Path.rootSlashes project.rootPath.toList = ['/', '/'] → ¬IsAmongLibraries root project) ∧
    (Path.Straight (Path.split project.rootPath.toList) →
      (project.type = .library ↔ IsAmongLibraries root project)) :=
  ⟨inferred.type_eq_library_iff, inferred.exists_below, inferred.not_isAmongLibraries,
    fun straight => inferred.type_eq_library_iff.trans
      (inferred.isAmongLibraries_iff_of_straight straight).symm⟩

/-! ## Spellings -/

def declaring (declared : String) : Json := .record [("root", .text declared)]

def rootedAt (type : ProjectType) (rootPath absoluteRootPath : String) : Project where
  name := "a"
  type
  rootPath
  sourceRootPath := none
  configFilePath := "angular.json"
  absoluteRootPath
  absoluteScanRootPath := absoluteRootPath

theorem inferred_of_declaring {declared : String}
    (resolved : resolve (.directory []) "/w" "angular.json" "a" (declaring declared) =
      .ok project) :
    Inferred (.directory []) "/w" "angular.json" "a" (declaring declared) project where
  canonical := by decide
  resolved
  undeclared := by
    intro found defined
    cases defined
    rfl

/-- Dots and repeated slashes behind the first name do no harm. -/
theorem resolve_inferred_roundabout :
    let project := rootedAt .library "libs//a/../b/." "/w/libs/b"
    Inferred (.directory []) "/w" "angular.json" "a" (declaring "./libs//a/../b/.") project ∧
      Path.Straight (Path.split project.rootPath.toList) ∧
      (project.type = .library ↔ IsAmongLibraries "/w" project) := by
  intro project
  have inferred : Inferred (.directory []) "/w" "angular.json" "a" (declaring "./libs//a/../b/.")
      project := inferred_of_declaring (by decide +kernel)
  have parts : Path.split project.rootPath.toList =
      ["libs".toList, [], "a".toList, ['.', '.'], "b".toList, ['.']] := by decide +kernel
  have straight : Path.Straight (Path.split project.rootPath.toList) := by
    rw [parts]
    exact .below (by decide) (.stay (.inl rfl) (.down (by decide) (.up (.down (by decide)
      (.stay (.inr rfl) (.arrive _))))))
  exact ⟨inferred, straight, (resolve_inferred inferred).2.2.2 straight⟩

/-- Only one dot in front is cut off, and a name in front is not left out if it is left again. -/
theorem declaring_detours :
    (∃ project, Inferred (.directory []) "/w" "angular.json" "a" (declaring "././libs/a") project ∧
      project.type = .application ∧ IsAmongLibraries "/w" project) ∧
    ∃ project, Inferred (.directory []) "/w" "angular.json" "a" (declaring "libs/../apps") project ∧
      project.type = .library ∧ ¬IsAmongLibraries "/w" project := by
  exact ⟨⟨rootedAt .application "./libs/a" "/w/libs/a", inferred_of_declaring (by decide +kernel),
    rfl, by decide +kernel⟩, ⟨rootedAt .library "libs/../apps" "/w/apps",
    inferred_of_declaring (by decide +kernel), rfl, by decide +kernel⟩⟩

end WorkspaceGraph.Project
