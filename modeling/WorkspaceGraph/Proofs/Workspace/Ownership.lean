import WorkspaceGraph.Resolution
import WorkspaceGraph.Proofs.Order
/-!
Who owns a path, and where an import leads, said without any order of the projects: of all projects
around a path, the one with the longest root owns it.
-/

namespace WorkspaceGraph

namespace Project

/-! ## The order of ownership -/

theorem precedes_iff {left right : Project} : precedes left right = true ↔
    right.absoluteRootPath.length < left.absoluteRootPath.length ∨
      right.absoluteRootPath.length = left.absoluteRootPath.length ∧ left.name ≤ right.name := by
  rw [precedes]
  split
  · rename_i same
    have same := beq_iff_eq.mp same
    simp [same]
  · rename_i different
    have different : ¬right.absoluteRootPath.length = left.absoluteRootPath.length := fun same =>
      different (beq_iff_eq.mpr same.symm)
    simp [different]

theorem precedes_total (left right : Project) : precedes left right ∨ precedes right left := by
  rw [precedes_iff, precedes_iff]
  rcases Nat.lt_trichotomy left.absoluteRootPath.length right.absoluteRootPath.length with
    shorter | same | longer
  · exact .inr (.inl shorter)
  · rcases String.le_total left.name right.name with first | first
    · exact .inl (.inr ⟨same.symm, first⟩)
    · exact .inr (.inr ⟨same, first⟩)
  · exact .inl (.inl longer)

instance : Std.Total fun left right => precedes left right = true where
  total := precedes_total

instance : IsTrans Project fun left right => precedes left right = true where
  trans first second third left right := by
    rw [precedes_iff] at left right ⊢
    rcases left with longer | ⟨same, names⟩
    · exact .inl (by omega)
    · rcases right with longer | ⟨sameNext, namesNext⟩
      · exact .inl (by omega)
      · exact .inr ⟨sameNext.trans same, String.le_trans names namesNext⟩

theorem insertByRoot_eq_orderedInsert (project : Project) (projects : List Project) :
    insertByRoot project projects =
      projects.orderedInsert (fun left right => precedes left right = true) project := by
  induction projects with
  | nil => rfl
  | cons next rest induction => rw [insertByRoot, List.orderedInsert_cons, induction]

theorem sortByRoot_eq_insertionSort (projects : List Project) : sortByRoot projects =
    projects.insertionSort fun left right => precedes left right = true := by
  induction projects with
  | nil => rfl
  | cons project rest induction =>
      rw [sortByRoot, insertByRoot_eq_orderedInsert, induction, List.insertionSort_cons]

theorem sortByRoot_perm (projects : List Project) : (sortByRoot projects).Perm projects := by
  rw [sortByRoot_eq_insertionSort]
  exact List.perm_insertionSort ..

theorem sortByRoot_sorted (projects : List Project) :
    (sortByRoot projects).Pairwise fun left right => precedes left right := by
  rw [sortByRoot_eq_insertionSort]
  exact List.pairwise_insertionSort ..

/-! ## Owners -/

def Holds (project : Project) (path : String) : Prop :=
  Path.isWithin (Path.absoluteForm path) project.absoluteRootPath = true

structure Owns (projects : List Project) (path : String) (project : Project) : Prop where
  isMember : project ∈ projects
  holds : project.Holds path
  first : ∀ other ∈ projects, other.Holds path → precedes project other

theorem Owns.name_eq {projects : List Project} {path : String} {project other : Project}
    (owns : Owns projects path project) (otherOwns : Owns projects path other) :
    project.name = other.name := by
  have forth := precedes_iff.mp (owns.first other otherOwns.isMember otherOwns.holds)
  have back := precedes_iff.mp (otherOwns.first project owns.isMember owns.holds)
  rcases forth with longer | ⟨same, names⟩
  · rcases back with _ | ⟨_, _⟩ <;> omega
  · rcases back with _ | ⟨_, namesBack⟩
    · omega
    · exact String.le_antisymm names namesBack

theorem owns_of_find? {projects : List Project} {path : String} {project : Project}
    (found : (sortByRoot projects).find? (fun project =>
      Path.isWithin (Path.absoluteForm path) project.absoluteRootPath) = some project) :
    Owns projects path project := by
  rcases List.find?_eq_some_iff_append.mp found with ⟨holds, before, after, whole, others⟩
  have sorted := sortByRoot_sorted projects
  rw [whole, List.pairwise_append] at sorted
  have members : ∀ other, other ∈ projects ↔ other ∈ before ++ project :: after := fun other => by
    rw [← whole]
    exact (sortByRoot_perm projects).mem_iff.symm
  refine ⟨(members project).mpr (by simp), holds, fun other member otherHolds => ?_⟩
  rcases List.mem_append.mp ((members other).mp member) with inside | inside
  · exact absurd otherHolds (by simpa [Holds] using others other inside)
  · rcases List.mem_cons.mp inside with rfl | inside
    · exact (precedes_total _ _).elim id id
    · exact (List.pairwise_cons.mp sorted.2.1).1 other inside

theorem owner?_eq_some_iff {projects : List Project} {path name : String} :
    owner? path (sortByRoot projects) = some name ↔
      ∃ project, Owns projects path project ∧ project.name = name := by
  rw [owner?, Option.map_eq_some_iff]
  constructor
  · rintro ⟨project, found, named⟩
    exact ⟨project, owns_of_find? found, named⟩
  · rintro ⟨project, owns, named⟩
    cases found : (sortByRoot projects).find? fun project =>
        Path.isWithin (Path.absoluteForm path) project.absoluteRootPath with
    | none =>
        have member := (sortByRoot_perm projects).mem_iff.mpr owns.isMember
        exact absurd owns.holds (List.find?_eq_none.mp found project member)
    | some other => exact ⟨other, rfl, ((owns_of_find? found).name_eq owns).trans named⟩

end Project

/-! ## Imports -/

namespace Resolution

/-- Where a specifier in a file leads. One that begins with a dot is a path from the file's
directory and leads to the owner of that path; any other leads to the project of the first rule
that matches. -/
inductive Leads (rules : List AliasRule) (projects : List Project) (file specifier : String) :
    String → Prop
  | relative (dotted : specifier.toList.head? = some '.') (owner : Project)
      (owns : Project.Owns projects (Path.resolve (Path.directory file) [specifier]) owner) :
      Leads rules projects file specifier owner.name
  | aliased (bare : specifier.toList.head? ≠ some '.') (before after : List AliasRule)
      (rule : AliasRule) (ordered : rules = before ++ rule :: after)
      (matched : rule.isMatch specifier = true)
      (first : ∀ other ∈ before, other.isMatch specifier = false) :
      Leads rules projects file specifier rule.project

variable {rules : List AliasRule} {projects : List Project} {file specifier target source : String}

theorem projectOf?_eq_some_iff :
    projectOf? rules (Project.sortByRoot projects) file specifier = some target ↔
      Leads rules projects file specifier target := by
  rw [projectOf?]
  split
  · rename_i dotted
    have dotted := beq_iff_eq.mp dotted
    rw [Project.owner?_eq_some_iff]
    constructor
    · rintro ⟨owner, owns, rfl⟩
      exact .relative dotted owner owns
    · intro leads
      cases leads with
      | relative _ owner owns => exact ⟨owner, owns, rfl⟩
      | aliased bare => exact absurd dotted bare
  · rename_i bare
    have bare : specifier.toList.head? ≠ some '.' := fun dotted => bare (beq_iff_eq.mpr dotted)
    rw [Option.map_eq_some_iff]
    constructor
    · rintro ⟨rule, found, rfl⟩
      rcases List.find?_eq_some_iff_append.mp found with ⟨matched, before, after, ordered, first⟩
      exact .aliased bare before after rule ordered matched (by simpa using first)
    · intro leads
      cases leads with
      | relative dotted => exact absurd dotted bare
      | aliased _ before after rule ordered matched first =>
          refine ⟨rule, List.find?_eq_some_iff_append.mpr ⟨matched, before, after, ordered, ?_⟩, rfl⟩
          simpa using first

theorem mem_dependencies {specifiers : List String} :
    target ∈ dependencies rules (Project.sortByRoot projects) source file specifiers ↔
      target ≠ source ∧ ∃ specifier ∈ specifiers, Leads rules projects file specifier target := by
  rw [dependencies, Order.mem_distinct, List.mem_filter, List.mem_filterMap]
  simp only [projectOf?_eq_some_iff, bne_iff_ne]
  exact and_comm

end Resolution

end WorkspaceGraph
