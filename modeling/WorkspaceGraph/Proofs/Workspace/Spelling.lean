import WorkspaceGraph.Proofs.Path.Walk
import WorkspaceGraph.Proofs.Workspace.Innermost
/-!
Relative imports go by what they denote. Whichever parts a specifier takes on the way, it leads to
the owner of the path where it ends.
-/

namespace WorkspaceGraph

theorem Project.owner?_of_absoluteForm {path other : String}
    (same : Path.absoluteForm path = Path.absoluteForm other) (projects : List Project) :
    owner? path projects = owner? other projects := by
  rw [owner?, owner?, same]

namespace Resolution

variable {rules : List AliasRule} {projects : List Project} {file specifier target : String}

theorem projectOf?_of_reaches (dotted : specifier.toList.head? = some '.')
    (reaches : Path.Reaches file specifier target) :
    projectOf? rules projects file specifier = Project.owner? target projects := by
  have relative : specifier.toList.head? ≠ some '/' := by simp [dotted]
  have resolved : Path.resolve (Path.directory file) [specifier] = Path.absoluteForm target := by
    rw [Path.resolve, List.foldl_cons, List.foldl_nil, reaches.normalize_eq relative]
  rw [projectOf?, if_pos (beq_iff_eq.mpr dotted), resolved]
  exact Project.owner?_of_absoluteForm (Path.absoluteForm_absoluteForm target) projects

theorem projectOf?_of_climb {names : List (List Char)} (rooted : Path.Rooted file.toList names)
    (dotted : specifier.toList.head? = some '.')
    (dots : ∀ part ∈ Path.split specifier.toList, part = [] ∨ part = ['.'] ∨ part = ['.', '.'])
    (enough : names.dropLast.length ≤ (Path.split specifier.toList).count ['.', '.']) :
    projectOf? rules projects file specifier = Project.owner? "/" projects := by
  have isRoot := Path.rootSlashes_of_head? rooted.head?
  have same : Path.rootSlashes (Path.rootSlashes file.toList) = Path.rootSlashes file.toList := by
    rcases isRoot with root | root <;> (rw [root]; rfl)
  have top : Path.Rooted (Path.rootSlashes file.toList) [] := by
    have whole : Path.Rooted (Path.rootSlashes file.toList ++ Path.unsplit []) [] :=
      Path.rooted_append isRoot (by simp)
    rwa [Path.unsplit, List.append_nil] at whole
  have reaches : Path.Reaches file specifier (String.ofList (Path.rootSlashes file.toList)) := by
    refine ⟨names, [], rooted, ?_, ?_, Path.Walk.to_top dots enough⟩
    · rwa [String.toList_ofList]
    · rwa [String.toList_ofList]
  have form : Path.absoluteForm (String.ofList (Path.rootSlashes file.toList)) =
      Path.absoluteForm "/" := by
    rcases isRoot with root | root <;> rw [root]
    rfl
  rw [projectOf?_of_reaches dotted reaches, Project.owner?_of_absoluteForm form]

/-- A relative specifier leads to the owner of the path that it denotes, and whatever else denotes
that path from any file leads there too. Going up from the top stays at the top. -/
theorem relative_denotes (dotted : specifier.toList.head? = some '.')
    (reaches : Path.Reaches file specifier target) :
    projectOf? rules projects file specifier = Project.owner? target projects ∧
    (∀ otherRules otherFile otherSpecifier, otherSpecifier.toList.head? = some '.' →
      Path.Reaches otherFile otherSpecifier target →
      projectOf? otherRules projects otherFile otherSpecifier =
        projectOf? rules projects file specifier) ∧
    ∀ names climb, Path.Rooted file.toList names → climb.toList.head? = some '.' →
      (∀ part ∈ Path.split climb.toList, part = [] ∨ part = ['.'] ∨ part = ['.', '.']) →
      names.dropLast.length ≤ (Path.split climb.toList).count ['.', '.'] →
      projectOf? rules projects file climb = Project.owner? "/" projects := by
  have owned : projectOf? rules projects file specifier = Project.owner? target projects :=
    projectOf?_of_reaches dotted reaches
  refine ⟨owned, fun otherRules otherFile otherSpecifier otherDotted otherReaches => ?_, ?_⟩
  · rw [owned]
    exact projectOf?_of_reaches otherDotted otherReaches
  · exact fun names climb rooted climbDotted dots enough =>
      projectOf?_of_climb rooted climbDotted dots enough

theorem reaches_detour :
    Path.Reaches "/w/apps/a/main.ts" ".././../libs//ui/" "/w/libs/ui" := by
  have parts : Path.split ".././../libs//ui/".toList =
      [['.', '.'], ['.'], ['.', '.'], ['l', 'i', 'b', 's'], [], ['u', 'i'], []] := by
    decide
  refine ⟨[['w'], ['a', 'p', 'p', 's'], ['a'], ['m', 'a', 'i', 'n', '.', 't', 's']],
    [['w'], ['l', 'i', 'b', 's'], ['u', 'i']], ⟨by decide, .inl rfl⟩,
    ⟨by decide, .inl rfl⟩, rfl, ?_⟩
  rw [parts]
  exact .up (.stay (.inr rfl) (.up (.down (by decide) (.stay (.inl rfl)
    (.down (by decide) (.stay (.inl rfl) (.arrive _)))))))

theorem relative_denotes_detour :
    ".././../libs//ui/".toList.head? = some '.' ∧
    Path.Reaches "/w/apps/a/main.ts" ".././../libs//ui/" "/w/libs/ui" ∧
    projectOf? [] (Project.sortByRoot Project.overlapping) "/w/apps/a/main.ts"
      ".././../libs//ui/" =
      Project.owner? "/w/libs/ui" (Project.sortByRoot Project.overlapping) :=
  ⟨rfl, reaches_detour, (relative_denotes rfl reaches_detour).1⟩

end Resolution

end WorkspaceGraph
