import Mathlib.Data.Set.Basic
import WorkspaceGraph.Proofs.Snapshot.Canonical
/-!
What a snapshot says, whatever the order in which it is written down and however often it repeats
itself. Two snapshots without ambiguous names have the same canonical form if and only if they say
the same.
-/

namespace WorkspaceGraph.Snapshot

/-! ## Contents -/

/-- Dependencies as a set, in which the owner itself does not count. -/
def dependencySet (owner : String) (dependencies : List String) : Set String :=
  {name | name ∈ dependencies ∧ name ≠ owner}

def ProjectNode.content (project : ProjectNode) : ProjectNode × Set String :=
  ({ project with dependencies := [] }, dependencySet project.name project.dependencies)

def ComponentNode.content (component : ComponentNode) : ComponentNode × Set String :=
  ({ component with dependencies := [] },
    dependencySet component.project component.dependencies)

open Classical in
/-- The files of all edges from the source to another project. Where there is no edge at all this is
not the same as an edge without files. -/
noncomputable def filesBetween (edges : List Edge) (source target : String) :
    Option (Set String) :=
  if Connected edges source target ∧ source ≠ target then
    some {file | Listed edges source target file}
  else none

def contents {α β : Type} (content : α → β) (list : List α) : Set β :=
  {told | ∃ entry ∈ list, content entry = told}

structure Content where
  workspaceConfigPath : String
  projects : Set (ProjectNode × Set String)
  libraries : Set LibraryNode
  components : Set (ComponentNode × Set String)
  files : String → String → Option (Set String)

noncomputable def content (snapshot : Snapshot) : Content where
  workspaceConfigPath := snapshot.workspaceConfigPath
  projects := contents ProjectNode.content snapshot.projects
  libraries := {library | library ∈ snapshot.libraries}
  components := contents ComponentNode.content snapshot.components
  files := filesBetween snapshot.edges

structure Unambiguous (snapshot : Snapshot) : Prop where
  projects : snapshot.projects.Pairwise fun left right => left.name ≠ right.name
  libraries : snapshot.libraries.Pairwise fun left right => left.name ≠ right.name
  components : snapshot.components.Pairwise fun left right => left.key ≠ right.key

/-! ## Nodes -/

theorem dependencySet_canonicalDependencies (owner : String) (dependencies : List String) :
    dependencySet owner (canonicalDependencies owner dependencies) =
      dependencySet owner dependencies := by
  ext name
  simp only [dependencySet, Set.mem_ofPred_eq, mem_canonicalDependencies, and_assoc, and_self]

theorem canonicalDependencies_of_dependencySet {owner : String} {left right : List String}
    (same : dependencySet owner left = dependencySet owner right) :
    canonicalDependencies owner left = canonicalDependencies owner right := by
  apply Order.distinct_eq_iff.mpr
  intro name
  have member := Set.ext_iff.mp same name
  simpa only [dependencySet, Set.mem_ofPred_eq, List.mem_filter, bne_iff_ne] using member

theorem ProjectNode.content_canonical (project : ProjectNode) :
    project.canonical.content = project.content := by
  simp only [content, canonical, dependencySet_canonicalDependencies]

theorem ComponentNode.content_canonical (component : ComponentNode) :
    component.canonical.content = component.content := by
  simp only [content, canonical, dependencySet_canonicalDependencies]

theorem ProjectNode.canonical_of_content {left right : ProjectNode}
    (same : left.content = right.content) : left.canonical = right.canonical := by
  have ⟨fields, dependencies⟩ := Prod.mk.inj same
  simp only [mk.injEq] at fields
  rw [fields.1] at dependencies
  have names := canonicalDependencies_of_dependencySet dependencies
  simp [canonical, fields, names]

theorem ComponentNode.canonical_of_content {left right : ComponentNode}
    (same : left.content = right.content) : left.canonical = right.canonical := by
  have ⟨fields, dependencies⟩ := Prod.mk.inj same
  simp only [mk.injEq] at fields
  rw [fields.2.2.2.2.1] at dependencies
  have names := canonicalDependencies_of_dependencySet dependencies
  simp [canonical, fields, names]

/-! ## Lists of nodes -/

section

variable {α β : Type} {content : α → β} {canonical : α → α} {left right canonicalLeft : List α}

theorem contents_of_canonical (kept : ∀ entry, content (canonical entry) = content entry)
    (members : ∀ entry, entry ∈ canonicalLeft ↔ ∃ raw ∈ left, canonical raw = entry) :
    contents content canonicalLeft = contents content left := by
  ext told
  simp only [contents, Set.mem_ofPred_eq, members]
  constructor
  · intro listed
    rcases listed with ⟨_, ⟨raw, member, rfl⟩, same⟩
    exact ⟨raw, member, (kept raw).symm.trans same⟩
  · intro listed
    rcases listed with ⟨raw, member, same⟩
    exact ⟨canonical raw, ⟨raw, member, rfl⟩, (kept raw).trans same⟩

/-- If entries have a canonical form for each content, then lists with the same contents have the
same entries in canonical form. -/
theorem canonical_mem_of_contents
    (decides : ∀ {one other}, content one = content other → canonical one = canonical other)
    (same : contents content left = contents content right) (entry : α) :
    (∃ raw ∈ left, canonical raw = entry) → ∃ raw ∈ right, canonical raw = entry := by
  intro listed
  rcases listed with ⟨raw, member, rfl⟩
  have told : content raw ∈ contents content right := same ▸ ⟨raw, member, rfl⟩
  rcases told with ⟨other, inside, equal⟩
  exact ⟨other, inside, decides equal⟩

end

/-! ## The content of the canonical form -/

theorem filesBetween_canonicalEdges (edges : List Edge) :
    filesBetween (canonicalEdges edges) = filesBetween edges := by
  funext source target
  have connected := @connected_canonicalEdges edges source target
  by_cases joined : Connected edges source target ∧ source ≠ target
  · rw [filesBetween, filesBetween, if_pos joined, if_pos ⟨connected.mpr joined, joined.2⟩]
    simp only [listed_canonicalEdges, ne_eq, joined.2, not_false_eq_true, and_true]
  · have apart : ¬(Connected (canonicalEdges edges) source target ∧ source ≠ target) :=
      fun other => joined (connected.mp other.1)
    rw [filesBetween, filesBetween, if_neg joined, if_neg apart]

theorem mem_canonical_projects {snapshot : Snapshot} {project : ProjectNode} :
    project ∈ snapshot.canonical.projects ↔
      ∃ raw ∈ snapshot.projects, raw.canonical = project := by
  rw [canonical, List.mem_map]
  simp only [(Order.sortOn_perm _ snapshot.projects).mem_iff]

theorem mem_canonical_libraries {snapshot : Snapshot} {library : LibraryNode} :
    library ∈ snapshot.canonical.libraries ↔ library ∈ snapshot.libraries :=
  (Order.sortOn_perm _ snapshot.libraries).mem_iff

theorem mem_canonicalComponents {components : List ComponentNode} {component : ComponentNode} :
    component ∈ canonicalComponents components ↔
      ∃ raw ∈ components, raw.canonical = component := by
  rw [canonicalComponents, (Order.sortOn_perm _ _).mem_iff, List.mem_map]

/-- Nothing that a snapshot says gets lost. -/
theorem content_canonical (snapshot : Snapshot) :
    snapshot.canonical.content = snapshot.content := by
  have projects : snapshot.canonical.content.projects = snapshot.content.projects :=
    contents_of_canonical ProjectNode.content_canonical fun _ => mem_canonical_projects
  have libraries : snapshot.canonical.content.libraries = snapshot.content.libraries := by
    ext library
    exact mem_canonical_libraries
  have components : snapshot.canonical.content.components = snapshot.content.components :=
    contents_of_canonical ComponentNode.content_canonical fun _ => mem_canonicalComponents
  have files : snapshot.canonical.content.files = snapshot.content.files :=
    filesBetween_canonicalEdges snapshot.edges
  rw [content, content, Content.mk.injEq]
  exact ⟨rfl, projects, libraries, components, files⟩

/-! ## The canonical form of a content -/

/-- The edges in canonical form are told by the files between projects. -/
theorem mem_canonicalEdges_iff {edges : List Edge} {edge : Edge} :
    edge ∈ canonicalEdges edges ↔ edge.files.Pairwise (· < ·) ∧
      filesBetween edges edge.source edge.target = some {file | file ∈ edge.files} := by
  -- Joined edges differ in source or target, so that an edge has all the files of its pair.
  have whole : ∀ found ∈ canonicalEdges edges,
      filesBetween edges found.source found.target = some {file | file ∈ found.files} := by
    intro found member
    have connected := connected_canonicalEdges.mp ⟨found, member, rfl, rfl⟩
    rw [filesBetween, if_pos connected]
    congr 1
    ext file
    have listed := @listed_canonicalEdges edges found.source found.target file
    simp only [connected.2, ne_eq, not_false_eq_true, and_true] at listed
    rw [Set.mem_ofPred_eq, ← listed]
    constructor
    · rintro ⟨other, otherMember, source, target, inside⟩
      have same : other = found := by
        apply List.inj_on_of_nodup_map (f := Edge.key) _ otherMember member
          (Edge.key_eq_iff.mpr ⟨source, target⟩)
        exact List.pairwise_map.mpr ((canonicalEdges_increasing edges).imp Std.ne_of_lt)
      exact same ▸ inside
    · exact fun inside => ⟨found, member, rfl, rfl, inside⟩
  constructor
  · intro member
    exact ⟨files_increasing (mem_canonicalEdges.mp member).1, whole edge member⟩
  · rintro ⟨increasing, told⟩
    have connected : Connected edges edge.source edge.target ∧ edge.source ≠ edge.target := by
      by_contra apart
      rw [filesBetween, if_neg apart] at told
      cases told
    rcases connected_canonicalEdges.mpr connected with ⟨found, member, source, target⟩
    have foundTold := whole found member
    rw [source, target, told] at foundTold
    have files : edge.files = found.files := by
      apply increasing.eq_of_mem_iff (files_increasing (mem_canonicalEdges.mp member).1)
      exact Set.ext_iff.mp (Option.some.inj foundTold)
    have same : edge = found := by
      rw [Edge.mk.injEq]
      exact ⟨source.symm, target.symm, files⟩
    exact same ▸ member

theorem canonicalEdges_of_filesBetween {left right : List Edge}
    (same : filesBetween left = filesBetween right) :
    canonicalEdges left = canonicalEdges right := by
  apply Order.eq_of_increasing Edge.key (canonicalEdges_increasing left)
    (canonicalEdges_increasing right)
  intro edge
  rw [mem_canonicalEdges_iff, mem_canonicalEdges_iff, same]

theorem filesBetween_congr {left right : List Edge}
    (connected : ∀ source target, Connected left source target ↔ Connected right source target)
    (listed : ∀ source target file,
      Listed left source target file ↔ Listed right source target file) :
    filesBetween left = filesBetween right := by
  have sameConnected : Connected left = Connected right := by
    funext source target
    exact propext (connected source target)
  have sameListed : Listed left = Listed right := by
    funext source target file
    exact propext (listed source target file)
  funext source target
  rw [filesBetween, filesBetween, sameConnected, sameListed]

theorem canonicalEdges_of_perm {left right : List Edge} (same : left.Perm right) :
    canonicalEdges left = canonicalEdges right := by
  apply canonicalEdges_of_filesBetween
  apply filesBetween_congr
  · intro source target
    simp only [Connected, same.mem_iff]
  · intro source target file
    simp only [Listed, same.mem_iff]

namespace Unambiguous

variable {snapshot left right : Snapshot}

theorem projects_increasing (unambiguous : snapshot.Unambiguous) :
    snapshot.canonical.projects.Pairwise fun one other => [one.name] < [other.name] := by
  rw [canonical, List.pairwise_map]
  apply Order.sortOn_increasing (fun project : ProjectNode => [project.name])
  exact unambiguous.projects.imp fun different same => different (List.cons.inj same).1

theorem libraries_increasing (unambiguous : snapshot.Unambiguous) :
    snapshot.canonical.libraries.Pairwise fun one other => [one.name] < [other.name] := by
  apply Order.sortOn_increasing (fun library : LibraryNode => [library.name])
  exact unambiguous.libraries.imp fun different same => different (List.cons.inj same).1

theorem components_increasing (unambiguous : snapshot.Unambiguous) :
    snapshot.canonical.components.Pairwise fun one other => one.key < other.key := by
  apply Order.sortOn_increasing ComponentNode.key
  rw [List.pairwise_map]
  exact unambiguous.components

/-- Nothing that a snapshot does not say is left in its canonical form. -/
theorem canonical_of_content (leftOnce : left.Unambiguous) (rightOnce : right.Unambiguous)
    (same : left.content = right.content) : left.canonical = right.canonical := by
  have ⟨configPath, projectsTold, librariesTold, componentsTold, filesTold⟩ :=
    Content.mk.inj same
  have projects : left.canonical.projects = right.canonical.projects := by
    apply Order.eq_of_increasing (fun project : ProjectNode => [project.name])
      leftOnce.projects_increasing rightOnce.projects_increasing
    intro project
    rw [mem_canonical_projects, mem_canonical_projects]
    exact ⟨canonical_mem_of_contents ProjectNode.canonical_of_content projectsTold project,
      canonical_mem_of_contents ProjectNode.canonical_of_content projectsTold.symm project⟩
  have libraries : left.canonical.libraries = right.canonical.libraries := by
    apply Order.eq_of_increasing (fun library : LibraryNode => [library.name])
      leftOnce.libraries_increasing rightOnce.libraries_increasing
    intro library
    rw [mem_canonical_libraries, mem_canonical_libraries]
    exact Set.ext_iff.mp librariesTold library
  have components : left.canonical.components = right.canonical.components := by
    apply Order.eq_of_increasing ComponentNode.key
      leftOnce.components_increasing rightOnce.components_increasing
    intro component
    rw [canonical, canonical, mem_canonicalComponents, mem_canonicalComponents]
    exact ⟨canonical_mem_of_contents ComponentNode.canonical_of_content componentsTold component,
      canonical_mem_of_contents ComponentNode.canonical_of_content componentsTold.symm component⟩
  have edges : left.canonical.edges = right.canonical.edges :=
    canonicalEdges_of_filesBetween filesTold
  rw [Snapshot.mk.injEq]
  exact ⟨configPath, projects, libraries, components, edges⟩

end Unambiguous

/-- The canonical form decides whether two snapshots say the same. -/
theorem canonical_eq_iff {left right : Snapshot} (leftOnce : left.Unambiguous)
    (rightOnce : right.Unambiguous) :
    left.canonical = right.canonical ↔ left.content = right.content := by
  constructor
  · intro same
    rw [← left.content_canonical, same, right.content_canonical]
  · exact leftOnce.canonical_of_content rightOnce

/-- Two projects that depend on each other, with an edge in two parts, one without files, and one
from a project to itself. -/
def scattered : Snapshot where
  workspaceConfigPath := "angular.json"
  projects := [
    ⟨"b", .library, "b", none, "angular.json", ["a"]⟩,
    ⟨"a", .application, "a", none, "angular.json", ["b", "a", "b"]⟩]
  libraries := [⟨"b", "b", none, "angular.json"⟩]
  components := [
    ⟨"Y", none, none, none, "a", "a/y.ts", ["b", "a"]⟩,
    ⟨"X", none, none, some true, "a", "a/x.ts", ["b"]⟩]
  edges := [⟨"b", "a", []⟩, ⟨"a", "b", ["a/y.ts"]⟩, ⟨"a", "a", ["a/z.ts"]⟩, ⟨"a", "b", ["a/x.ts"]⟩]

def tidy : Snapshot where
  workspaceConfigPath := "angular.json"
  projects := [
    ⟨"a", .application, "a", none, "angular.json", ["b"]⟩,
    ⟨"b", .library, "b", none, "angular.json", ["a"]⟩]
  libraries := [⟨"b", "b", none, "angular.json"⟩]
  components := [
    ⟨"X", none, none, some true, "a", "a/x.ts", ["b"]⟩,
    ⟨"Y", none, none, none, "a", "a/y.ts", ["b"]⟩]
  edges := [⟨"a", "b", ["a/x.ts", "a/y.ts"]⟩, ⟨"b", "a", []⟩]

theorem canonical_eq_iff_scattered : scattered.Unambiguous ∧ tidy.Unambiguous ∧
    (scattered.canonical = tidy.canonical ↔ scattered.content = tidy.content) := by
  have leftOnce : scattered.Unambiguous := ⟨by decide, by decide, by decide⟩
  have rightOnce : tidy.Unambiguous := ⟨by decide, by decide, by decide⟩
  exact ⟨leftOnce, rightOnce, canonical_eq_iff leftOnce rightOnce⟩

example : scattered.canonical = tidy := by decide

end WorkspaceGraph.Snapshot
