import WorkspaceGraph.Proofs.Path.Around
import WorkspaceGraph.Proofs.Workspace.Ownership
/-!
The project with the longest root around a path is the innermost one. Roots around one path form a
chain, so that the longer of two lies inside the other.
-/

namespace WorkspaceGraph.Project

/-- The project's root is around the path, and every other root around the path is around that root.
Of the projects with this root it has the least name. -/
structure Innermost (projects : List Project) (path : String) (project : Project) : Prop where
  isMember : project ∈ projects
  around : Path.Around project.absoluteRootPath path
  inner : ∀ other ∈ projects, Path.Around other.absoluteRootPath path →
    Path.Around other.absoluteRootPath project.absoluteRootPath
  least : ∀ other ∈ projects, other.absoluteRootPath = project.absoluteRootPath →
    project.name ≤ other.name

variable {projects : List Project} {path : String} {project : Project}

theorem holds_iff_around (rootCanonical : Path.IsCanonical project.absoluteRootPath)
    (canonical : Path.IsCanonical path) :
    project.Holds path ↔ Path.Around project.absoluteRootPath path := by
  rw [Holds, canonical.absoluteForm_eq]
  exact rootCanonical.isWithin_iff_around canonical

theorem around_of_length_le {other : Project}
    (rootCanonical : Path.IsCanonical project.absoluteRootPath)
    (otherCanonical : Path.IsCanonical other.absoluteRootPath)
    (around : Path.Around project.absoluteRootPath path)
    (otherAround : Path.Around other.absoluteRootPath path)
    (longer : other.absoluteRootPath.length ≤ project.absoluteRootPath.length) :
    Path.Around other.absoluteRootPath project.absoluteRootPath := by
  rcases List.prefix_or_prefix_of_prefix around otherAround with outer | inner
  · have within := (rootCanonical.isWithin_iff_around otherCanonical).mpr outer
    cases back : Path.isWithin project.absoluteRootPath other.absoluteRootPath with
    | true => exact (otherCanonical.isWithin_iff_around rootCanonical).mp back
    | false =>
        have shorter := Path.length_lt_of_isWithin rootCanonical.trimmed within back
        omega
  · exact inner

theorem length_le_of_around {other : Project}
    (rootCanonical : Path.IsCanonical project.absoluteRootPath)
    (otherCanonical : Path.IsCanonical other.absoluteRootPath)
    (inner : Path.Around other.absoluteRootPath project.absoluteRootPath) :
    other.absoluteRootPath.length < project.absoluteRootPath.length ∨
      other.absoluteRootPath = project.absoluteRootPath := by
  have within := (otherCanonical.isWithin_iff_around rootCanonical).mpr inner
  cases back : Path.isWithin other.absoluteRootPath project.absoluteRootPath with
  | true =>
      have outer := (rootCanonical.isWithin_iff_around otherCanonical).mp back
      exact .inr (otherCanonical.eq_of_around rootCanonical inner outer)
  | false => exact .inl (Path.length_lt_of_isWithin otherCanonical.trimmed within back)

/-- To own a path is to be the innermost project around it. -/
theorem owns_iff_innermost
    (rootsCanonical : ∀ project ∈ projects, Path.IsCanonical project.absoluteRootPath)
    (canonical : Path.IsCanonical path) :
    Owns projects path project ↔ Innermost projects path project := by
  have holds : ∀ {other}, other ∈ projects →
      (other.Holds path ↔ Path.Around other.absoluteRootPath path) := fun member =>
    holds_iff_around (rootsCanonical _ member) canonical
  constructor
  · intro owns
    have around := (holds owns.isMember).mp owns.holds
    refine ⟨owns.isMember, around, fun other member otherAround => ?_, fun other member same => ?_⟩
    · have first := precedes_iff.mp (owns.first other member ((holds member).mpr otherAround))
      exact around_of_length_le (rootsCanonical _ owns.isMember) (rootsCanonical _ member) around
        otherAround (by omega)
    · have otherHolds : other.Holds path := by
        rw [Holds, same]
        exact owns.holds
      rcases precedes_iff.mp (owns.first other member otherHolds) with longer | ⟨_, names⟩
      · rw [same] at longer
        exact absurd longer (Nat.lt_irrefl _)
      · exact names
  · intro innermost
    refine ⟨innermost.isMember, (holds innermost.isMember).mpr innermost.around,
      fun other member otherHolds => precedes_iff.mpr ?_⟩
    have inner := innermost.inner other member ((holds member).mp otherHolds)
    rcases length_le_of_around (rootsCanonical _ innermost.isMember) (rootsCanonical _ member) inner
      with longer | same
    · exact .inl longer
    · exact .inr ⟨by rw [same], innermost.least other member same⟩

theorem Innermost.of_perm {others : List Project} (same : others.Perm projects)
    (innermost : Innermost projects path project) : Innermost others path project where
  isMember := same.mem_iff.mpr innermost.isMember
  around := innermost.around
  inner := fun other member => innermost.inner other (same.mem_iff.mp member)
  least := fun other member => innermost.least other (same.mem_iff.mp member)

structure Ownership (projects : List Project) (path : String) : Prop where
  unowned : owner? path (sortByRoot projects) = none ↔
    ∀ project ∈ projects, ¬Path.Around project.absoluteRootPath path
  owned : ∀ name, owner? path (sortByRoot projects) = some name ↔
    ∃ project, Innermost projects path project ∧ project.name = name
  anyOrder : ∀ others, others.Perm projects →
    owner? path (sortByRoot others) = owner? path (sortByRoot projects)
  sibling : ∀ project ∈ projects, ∀ char rest, project.absoluteRootPath ≠ "/" →
    path.toList = project.absoluteRootPath.toList ++ char :: rest → char ≠ '/' →
    ¬Path.Around project.absoluteRootPath path
  below : ∀ project ∈ projects,
    project.absoluteRootPath = "/" ∨ Path.Below project.absoluteRootPath path →
    owner? path (sortByRoot projects) ≠ none

theorem owner?_eq_none_iff {projects : List Project} {path : String} :
    owner? path (sortByRoot projects) = none ↔ ∀ project ∈ projects, ¬project.Holds path := by
  rw [owner?, Option.map_eq_none_iff, List.find?_eq_none]
  exact forall_congr' fun project => imp_congr_left (sortByRoot_perm projects).mem_iff

/-- A path is owned by the innermost project around it. -/
theorem innermost_owned
    (rootsCanonical : ∀ project ∈ projects, Path.IsCanonical project.absoluteRootPath)
    (canonical : Path.IsCanonical path) : Ownership projects path := by
  have unowned : owner? path (sortByRoot projects) = none ↔
      ∀ project ∈ projects, ¬Path.Around project.absoluteRootPath path := by
    rw [owner?_eq_none_iff]
    exact forall₂_congr fun project member =>
      not_congr (holds_iff_around (rootsCanonical project member) canonical)
  have owned : ∀ {others}, others.Perm projects → ∀ name,
      owner? path (sortByRoot others) = some name ↔
        ∃ project, Innermost projects path project ∧ project.name = name := by
    intro others same name
    have othersCanonical : ∀ project ∈ others, Path.IsCanonical project.absoluteRootPath :=
      fun project member => rootsCanonical project (same.mem_iff.mp member)
    rw [owner?_eq_some_iff]
    refine exists_congr fun project => and_congr_left fun _ => ?_
    rw [owns_iff_innermost othersCanonical canonical]
    exact ⟨.of_perm same.symm, .of_perm same⟩
  refine ⟨unowned, owned (.refl _), fun others same => ?_, ?_, ?_⟩
  · exact Option.ext fun name => (owned same name).trans (owned (.refl _) name).symm
  · intro project member char rest notTop begins inside
    exact (rootsCanonical project member).not_around_of_sibling canonical notTop begins inside
  · intro project member contained none
    refine unowned.mp none project member ?_
    exact ((rootsCanonical project member).around_iff canonical).mpr contained

def overlapping : List Project :=
  let place (name root : String) : Project :=
    ⟨name, .library, root, none, "angular.json", root, root⟩
  [place "top" "/", place "ui" "/w/libs/ui", place "twin" "/w/libs/ui-kit",
    place "kit" "/w/libs/ui-kit", place "all" "/w"]

theorem innermost_owned_overlapping :
    (∀ project ∈ overlapping, Path.IsCanonical project.absoluteRootPath) ∧
      Path.IsCanonical "/w/libs/ui-kit/a.ts" ∧ Ownership overlapping "/w/libs/ui-kit/a.ts" := by
  have rootsCanonical : ∀ project ∈ overlapping, Path.IsCanonical project.absoluteRootPath := by
    decide
  have canonical : Path.IsCanonical "/w/libs/ui-kit/a.ts" := by decide
  exact ⟨rootsCanonical, canonical, innermost_owned rootsCanonical canonical⟩

/-- Of the two projects at the innermost place the first by name owns the file. -/
example : owner? "/w/libs/ui-kit/a.ts" (sortByRoot overlapping) = some "kit" := by decide

end WorkspaceGraph.Project
