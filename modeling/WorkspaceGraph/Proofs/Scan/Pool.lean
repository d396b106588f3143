import Mathlib.Data.List.Sigma
import Mathlib.Logic.Relation
import WorkspaceGraph.Proofs.Scan.Graph
import WorkspaceGraph.Proofs.Snapshot.Content
/-!
Scanning the projects side by side. What is found in a project belongs to it alone, so the findings
can be joined in whichever order they come in.
-/

namespace WorkspaceGraph

namespace Snapshot

/-! ## Lists in another order -/

/-- Blocks can be put together in any order if of each two blocks one is empty. -/
theorem flatMap_eq_of_perm {α β : Type} {left right : List α} {blocks : α → List β}
    (same : left.Perm right)
    (alone : left.Pairwise fun one other => blocks one = [] ∨ blocks other = []) :
    left.flatMap blocks = right.flatMap blocks := by
  induction same with
  | nil => rfl
  | cons entry _ induction =>
      rw [List.flatMap_cons, List.flatMap_cons, induction (List.pairwise_cons.mp alone).2]
  | swap first second rest =>
      have apart := (List.pairwise_cons.mp alone).1 first (List.mem_cons_self ..)
      simp only [List.flatMap_cons]
      cases apart with
      | inl empty => rw [empty, List.nil_append, List.nil_append]
      | inr empty => rw [empty, List.nil_append, List.nil_append]
  | trans first _ before after =>
      rw [before alone]
      exact after (first.pairwise alone Or.symm)

theorem canonicalComponents_eq_map (components : List ComponentNode) :
    canonicalComponents components =
      (Order.sortOn ComponentNode.key components).map ComponentNode.canonical :=
  Order.sortOn_map ComponentNode.key ComponentNode.canonical components

end Snapshot

namespace Scan

/-! ## Findings -/

structure Findings.Of (project : Project) (findings : Findings) : Prop where
  components : ∀ component ∈ findings.components, component.project = project.name
  edges : ∀ edge ∈ findings.edges, edge.source = project.name

theorem project_of (tree : FileTree) (survey : Survey) (scanned : Project) :
    (project tree survey scanned).Of scanned where
  components := by
    intro component member
    simp only [project, List.mem_flatMap, List.mem_map] at member
    rcases member with ⟨_, ⟨found, _, rfl⟩, member⟩
    simp only [file, Option.mem_toList, Option.map_eq_some_iff] at member
    rcases member with ⟨metadata, _, same⟩
    exact (congrArg Snapshot.ComponentNode.project same).symm
  edges := by
    intro edge member
    simp only [project, List.mem_flatMap, List.mem_map] at member
    rcases member with ⟨_, ⟨found, _, rfl⟩, member⟩
    rw [edges_file] at member
    rcases List.mem_map.mp member with ⟨target, _, same⟩
    exact (congrArg Snapshot.Edge.source same).symm

def Findings.withKey (key : List String) (findings : Findings) : List Snapshot.ComponentNode :=
  findings.components.filter (·.key = key)

/-- A key names its project, so findings of different projects have none in common. -/
theorem Findings.Of.withKey_apart {one other : Project} {left right : Findings}
    (leftOf : left.Of one) (rightOf : right.Of other) (different : one.name ≠ other.name)
    (key : List String) : left.withKey key = [] ∨ right.withKey key = [] := by
  by_cases leftEmpty : left.withKey key = []
  · exact .inl leftEmpty
  · apply Or.inr
    rw [withKey, List.filter_eq_nil_iff]
    intro component member keyed
    rcases List.exists_mem_of_ne_nil _ leftEmpty with ⟨tied, inside⟩
    have ⟨tiedMember, tiedKeyed⟩ := List.mem_filter.mp inside
    have same : tied.key = component.key :=
      (of_decide_eq_true tiedKeyed).trans (of_decide_eq_true keyed).symm
    have projects : tied.project = component.project := (List.cons.inj same).1
    rw [leftOf.components tied tiedMember, rightOf.components component member] at projects
    exact different projects

theorem withKey_pairwise {projects : List Project} {results : List Findings}
    (distinct : projects.Pairwise fun left right => left.name ≠ right.name)
    (own : List.Forall₂ (fun project findings => findings.Of project) projects results)
    (key : List String) :
    results.Pairwise fun left right => left.withKey key = [] ∨ right.withKey key = [] := by
  induction own with
  | nil => exact .nil
  | @cons project findings rest others first own induction =>
      have ⟨apart, distinct⟩ := List.pairwise_cons.mp distinct
      apply List.pairwise_cons.mpr
      constructor
      · intro next member
        rcases List.getElem_of_mem member with ⟨position, bound, rfl⟩
        have inBounds : position < rest.length := by
          have lengths := own.length_eq
          omega
        exact first.withKey_apart (own.get inBounds bound)
          (apart _ (List.getElem_mem inBounds)) key
      · exact induction distinct

/-! ## Joining -/

theorem canonicalComponents_of_perm {left right : List Findings} (same : left.Perm right)
    (apart : ∀ key, left.Pairwise fun one other =>
      one.withKey key = [] ∨ other.withKey key = []) :
    Snapshot.canonicalComponents (left.flatMap (·.components)) =
      Snapshot.canonicalComponents (right.flatMap (·.components)) := by
  have sorted : Order.sortOn Snapshot.ComponentNode.key (left.flatMap (·.components)) =
      Order.sortOn Snapshot.ComponentNode.key (right.flatMap (·.components)) := by
    rw [Order.sortOn_eq_iff]
    intro tied
    rw [List.filter_flatMap, List.filter_flatMap]
    exact Snapshot.flatMap_eq_of_perm same (apart tied)
  rw [Snapshot.canonicalComponents_eq_map, Snapshot.canonicalComponents_eq_map, sorted]

theorem join_eq_of_perm {survey : Survey} {shuffled : List Project}
    {results arrived : List Findings}
    (distinct : survey.projects.Pairwise fun left right => left.name ≠ right.name)
    (own : List.Forall₂ (fun project findings => findings.Of project) survey.projects results)
    (arrival : arrived.Perm results) (order : shuffled.Perm survey.projects) :
    join { survey with projects := shuffled } arrived = join survey results := by
  have components : Snapshot.canonicalComponents (arrived.flatMap (·.components)) =
      Snapshot.canonicalComponents (results.flatMap (·.components)) :=
    (canonicalComponents_of_perm arrival.symm (withKey_pairwise distinct own)).symm
  have edges : Snapshot.canonicalEdges (arrived.flatMap (·.edges)) =
      Snapshot.canonicalEdges (results.flatMap (·.edges)) :=
    Snapshot.canonicalEdges_of_perm (arrival.flatMap_right (·.edges))
  have projects : Order.sortOn (fun project : Project => [project.name]) shuffled =
      Order.sortOn (fun project : Project => [project.name]) survey.projects := by
    apply (Order.sortOn_eq_of_perm _ order.symm _).symm
    exact distinct.imp fun different same => different (List.cons.inj same).1
  rw [join, join, Snapshot.assemble, Snapshot.assemble, components, edges, projects]

/-! ## The pool -/

/-- Workers that take the projects from a queue and scan them. The projects are numbered in the
order in which they were handed in. -/
structure Pool where
  waiting : List (Project × Nat)
  busy : List (Project × Nat)
  finished : List (Findings × Nat)

namespace Pool

def ofProjects (projects : List Project) : Pool := ⟨projects.zipIdx, [], []⟩

inductive Step (workers : Nat) (scan : Project → Findings) : Pool → Pool → Prop
  | start {task waiting busy finished} : busy.length < workers →
      Step workers scan ⟨task :: waiting, busy, finished⟩ ⟨waiting, task :: busy, finished⟩
  | finish {waiting before project number after finished} :
      Step workers scan ⟨waiting, before ++ (project, number) :: after, finished⟩
        ⟨waiting, before ++ after, finished ++ [(scan project, number)]⟩

def Reaches (workers : Nat) (scan : Project → Findings) : Pool → Pool → Prop :=
  Relation.ReflTransGen (Step workers scan)

def Ended (pool : Pool) : Prop := pool.waiting = [] ∧ pool.busy = []

def completed (pool : Pool) : List Findings := pool.finished.map (·.1)

def submitted (pool : Pool) : List Findings :=
  (pool.finished.mergeSort fun one other => one.2 ≤ other.2).map (·.1)

variable {workers : Nat} {scan : Project → Findings} {pool next : Pool}

def outcome (scan : Project → Findings) (pool : Pool) : List (Findings × Nat) :=
  pool.finished ++ (pool.busy ++ pool.waiting).map (Prod.map scan id)

def remaining (pool : Pool) : Nat := 2 * pool.waiting.length + pool.busy.length

theorem Step.outcome_perm (step : Step workers scan pool next) :
    (next.outcome scan).Perm (pool.outcome scan) := by
  cases step with
  | start free =>
      apply List.Perm.append_left
      exact (List.perm_middle.symm).map _
  | @finish waiting before project number after finished =>
      have moved : ((before ++ (project, number) :: after) ++ waiting).Perm
          ((project, number) :: ((before ++ after) ++ waiting)) :=
        List.perm_middle.append_right waiting
      have whole := (moved.map (Prod.map scan id)).append_left finished
      rw [outcome, outcome, List.append_assoc]
      exact whole.symm

theorem Step.remaining_lt (step : Step workers scan pool next) :
    next.remaining < pool.remaining := by
  cases step with
  | start free =>
      simp only [remaining, List.length_cons]
      omega
  | finish =>
      simp only [remaining, List.length_append, List.length_cons]
      omega

/-- Whatever the workers have done so far, nothing gets lost and nothing is found twice. -/
theorem Reaches.outcome_perm (reaches : Reaches workers scan pool next) :
    (next.outcome scan).Perm (pool.outcome scan) := by
  induction reaches with
  | refl => exact .refl _
  | tail _ step induction => exact step.outcome_perm.trans induction

theorem exists_step (some : 0 < workers) (unfinished : ¬pool.Ended) :
    ∃ next, Step workers scan pool next := by
  rcases pool with ⟨waiting, busy, finished⟩
  cases busy with
  | cons task after =>
      exact ⟨_, @Step.finish workers scan waiting [] task.1 task.2 after finished⟩
  | nil =>
      cases waiting with
      | nil => exact absurd ⟨rfl, rfl⟩ unfinished
      | cons task rest => exact ⟨_, .start some⟩

/-- A pool with a worker goes on until it has ended. -/
theorem exists_ended (some : 0 < workers) (pool : Pool) :
    ∃ ended, Reaches workers scan pool ended ∧ ended.Ended := by
  induction steps : pool.remaining using Nat.strong_induction_on generalizing pool with
  | h steps induction =>
      by_cases finished : pool.Ended
      · exact ⟨pool, .refl, finished⟩
      · rcases @exists_step _ scan _ some finished with ⟨next, step⟩
        have fewer := step.remaining_lt
        rcases induction next.remaining (steps ▸ fewer) next rfl with ⟨ended, reaches, finished⟩
        exact ⟨ended, .head step reaches, finished⟩

variable {projects : List Project}

theorem finished_perm (reaches : Reaches workers scan (ofProjects projects) pool)
    (ended : pool.Ended) : pool.finished.Perm (projects.map scan).zipIdx := by
  have whole := reaches.outcome_perm
  rw [outcome, ended.1, ended.2] at whole
  simpa [outcome, ofProjects, List.map_zipIdx] using whole

theorem completed_perm (reaches : Reaches workers scan (ofProjects projects) pool)
    (ended : pool.Ended) : pool.completed.Perm (projects.map scan) := by
  have whole := (finished_perm reaches ended).map Prod.fst
  rwa [List.zipIdx_map_fst] at whole

/-- In the order in which they were handed in, the findings are those of a scan one by one. -/
theorem submitted_eq (reaches : Reaches workers scan (ofProjects projects) pool)
    (ended : pool.Ended) : pool.submitted = projects.map scan := by
  have finished := finished_perm reaches ended
  have sorted : (pool.finished.mergeSort fun one other => one.2 ≤ other.2).Pairwise
      fun one other => one.2 ≤ other.2 := by
    have ordered := @List.pairwise_mergeSort (Findings × Nat) (fun one other => one.2 ≤ other.2)
      (fun one middle other => by simpa using Nat.le_trans)
      (fun one other => by simpa using Nat.le_total one.2 other.2) pool.finished
    simpa using ordered
  have numbered : (projects.map scan).zipIdx.Pairwise fun one other => one.2 ≤ other.2 := by
    apply List.pairwise_map.mp
    rw [List.zipIdx_map_snd]
    exact List.pairwise_le_range'
  have whole : pool.finished.mergeSort (fun one other => one.2 ≤ other.2) =
      (projects.map scan).zipIdx := by
    have same := (List.mergeSort_perm pool.finished fun one other => one.2 ≤ other.2).trans finished
    apply same.eq_of_pairwise _ sorted numbered
    intro one other oneMember otherMember below above
    exact List.inj_on_of_nodup_map (List.nodup_zipIdx_map_snd _) (same.mem_iff.mp oneMember)
      otherMember (Nat.le_antisymm below above)
  rw [submitted, whole]
  exact List.zipIdx_map_fst 0 _

end Pool

/-! ## Surveys -/

theorem findings_of_survey (tree : FileTree) (survey : Survey) :
    List.Forall₂ (fun scanned findings => Findings.Of scanned findings) survey.projects
      (survey.projects.map (project tree survey)) := by
  apply List.forall₂_map_right_iff.mpr
  apply List.forall₂_same.mpr
  intro scanned _
  exact project_of tree survey scanned

/-- The findings of projects with different names give the same snapshot in whichever order they
and the projects come. So a pool of workers, which always comes to an end, gives the snapshot of a
scan one by one, whoever finishes first. -/
theorem join_anyOrder :
    (∀ (survey : Survey) (results arrived : List Findings) (shuffled : List Project),
      (survey.projects.Pairwise fun left right => left.name ≠ right.name) →
      List.Forall₂ (fun scanned findings => Findings.Of scanned findings) survey.projects results →
      arrived.Perm results → shuffled.Perm survey.projects →
      join { survey with projects := shuffled } arrived = join survey results) ∧
    ∀ (tree : FileTree) (root : String) (survey : Survey) (workers : Nat)
      (scan : Project → Findings) (pool : Pool),
      Survey.make tree root = .ok survey → 0 < workers →
      (∀ scanned ∈ survey.projects, scan scanned = project tree survey scanned) →
      Pool.Reaches workers scan (.ofProjects survey.projects) pool →
      (∃ ended, Pool.Reaches workers scan pool ended ∧ ended.Ended) ∧
      (pool.Ended → run tree root = .ok (join survey pool.completed) ∧
        run tree root = .ok (join survey pool.submitted)) := by
  constructor
  · intro survey results arrived shuffled distinct own arrival order
    exact join_eq_of_perm distinct own arrival order
  · intro tree root survey workers scan pool surveyed some same reaches
    have alike : survey.projects.map scan = survey.projects.map (project tree survey) :=
      List.map_congr_left same
    have scanned : run tree root = .ok (join survey (survey.projects.map scan)) := by
      rw [run, surveyed, alike]
      rfl
    constructor
    · exact Pool.exists_ended some pool
    · intro ended
      rw [scanned]
      constructor
      · have ⟨registry, made⟩ := Survey.made_of_make surveyed
        have own := findings_of_survey tree survey
        rw [← alike] at own
        rw [← join_eq_of_perm (made.increasing.imp Std.ne_of_lt) own
          (Pool.completed_perm reaches ended) (.refl _)]
      · rw [Pool.submitted_eq reaches ended]

theorem join_anyOrder_pairTree : ∃ survey pool,
    Survey.make pairTree (Path.absolute "/" "w") = .ok survey ∧
    join { survey with projects := survey.projects.reverse }
      (survey.projects.map (project pairTree survey)).reverse = ofSurvey pairTree survey ∧
    Pool.Reaches 2 (project pairTree survey) (.ofProjects survey.projects) pool ∧ pool.Ended ∧
    run pairTree (Path.absolute "/" "w") = .ok (join survey pool.completed) ∧
    run pairTree (Path.absolute "/" "w") = .ok (join survey pool.submitted) := by
  rcases map_eq_ok.mp run_pairTree with ⟨survey, surveyed, _⟩
  have ⟨registry, made⟩ := Survey.made_of_make surveyed
  have reordered := join_anyOrder.1 survey _ _ _ (made.increasing.imp Std.ne_of_lt)
    (findings_of_survey pairTree survey) (List.reverse_perm _) (List.reverse_perm _)
  have start := (join_anyOrder.2 pairTree _ survey 2 (project pairTree survey) _ surveyed
    (by decide) (fun _ _ => rfl) .refl).1
  rcases start with ⟨pool, reaches, ended⟩
  have same := (join_anyOrder.2 pairTree _ survey 2 (project pairTree survey) pool surveyed
    (by decide) (fun _ _ => rfl) reaches).2 ended
  exact ⟨survey, pool, surveyed, reordered, reaches, ended, same⟩

end Scan

end WorkspaceGraph
