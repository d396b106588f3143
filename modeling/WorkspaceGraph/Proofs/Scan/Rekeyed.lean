import WorkspaceGraph.Proofs.Workspace.Contested
import WorkspaceGraph.Proofs.Workspace.Remapped
/-!
Workspaces with path mappings in another order. Their surveys differ at most in the order of rules
with one base, and their snapshots not at all unless an import is contested.
-/

namespace WorkspaceGraph

variable {left right : FileTree}

/-! ## Surveys -/

theorem AliasRule.load_rekeyed (rekeyed : Rekeyed left right) (root : String)
    (projects : List Project) :
    Agree Reordered (load left root projects) (load right root projects) :=
  (loadMappings_rekeyed rekeyed).map fun _ _ same => ofMappings_reordered same.1 same.2

/-- The surveys differ at most in the order of rules with one base. -/
structure Survey.Reordered (survey other : Survey) : Prop where
  root : survey.root = other.root
  config : survey.config = other.config
  projects : survey.projects = other.projects
  owners : survey.owners = other.owners
  rules : AliasRule.Reordered survey.rules other.rules

theorem Survey.make_rekeyed (rekeyed : AliasRule.Rekeyed left right) (root : String) :
    Agree Reordered (make left root) (make right root) := by
  refine (Agree.eq_iff.mpr (Registry.load_eq rekeyed)).bind fun registry _ same => ?_
  rw [← same]
  refine (Agree.eq_iff.mpr (Project.loadAll_eq rekeyed registry)).bind fun projects _ same => ?_
  rw [← same]
  refine (AliasRule.load_rekeyed rekeyed root _).bind fun rules others reordered => ?_
  exact .ok ⟨rfl, rfl, rfl, rfl, reordered⟩

theorem Survey.Reordered.eq_of_definite {survey other : Survey}
    (reordered : survey.Reordered other) (definite : AliasRule.Definite survey.rules) :
    survey = other := by
  have rules := reordered.rules.definite definite
  rcases reordered with ⟨root, config, projects, owners, -⟩
  cases survey
  cases other
  congr

/-! ## Snapshots -/

namespace Scan

def Uncontested (tree : FileTree) (survey : Survey) : Prop :=
  ∀ project ∈ survey.projects, ∀ found ∈ filesOf tree project,
    ∀ specifier ∈ Source.Import.specifiers (Text.ofFileLenient found.content),
      AliasRule.Settled survey.rules specifier

theorem filesOf_eq (rekeyed : AliasRule.Rekeyed left right) (project : Project) :
    filesOf left project = filesOf right project := by
  rw [filesOf, filesOf, filesBelow_rekeyed rekeyed]

theorem file_eq {survey other : Survey} (reordered : survey.Reordered other) (project : Project)
    {found : Source.Found}
    (settled : ∀ specifier ∈ Source.Import.specifiers (Text.ofFileLenient found.content),
      AliasRule.Settled survey.rules specifier) :
    file survey project found = file other project found := by
  have led : ∀ specifier ∈ Source.Import.specifiers (Text.ofFileLenient found.content),
      Resolution.projectOf? survey.rules survey.owners found.path specifier =
        Resolution.projectOf? other.rules other.owners found.path specifier := by
    intro specifier member
    rw [← reordered.owners]
    exact reordered.rules.settled _ _ _ (settled specifier member)
  have dependencies : ∀ source, Resolution.dependencies survey.rules survey.owners source found.path
        (Source.Import.specifiers (Text.ofFileLenient found.content)) =
      Resolution.dependencies other.rules other.owners source found.path
        (Source.Import.specifiers (Text.ofFileLenient found.content)) := fun source => by
    rw [Resolution.dependencies, Resolution.dependencies, List.filterMap_congr led]
  rw [file, file]
  simp only [dependencies, reordered.root]

theorem ofSurvey_eq (rekeyed : AliasRule.Rekeyed left right) {survey other : Survey}
    (reordered : survey.Reordered other) (uncontested : Uncontested left survey) :
    ofSurvey left survey = ofSurvey right other := by
  have findings : survey.projects.map (project left survey) =
      other.projects.map (project right other) := by
    rw [← reordered.projects]
    refine List.map_congr_left fun scanned member => ?_
    have files : (filesOf left scanned).map (file survey scanned) =
        (filesOf right scanned).map (file other scanned) := by
      rw [← filesOf_eq rekeyed]
      exact List.map_congr_left fun found inside =>
        file_eq reordered scanned (uncontested scanned member found inside)
    rw [project, project, files]
  rw [ofSurvey, ofSurvey, findings, join, join, reordered.config, reordered.projects]

/-- The order of the path mappings decides nothing but which rule is tried first where a base
belongs to two projects, and there it always does. -/
theorem run_rekeyed (rekeyed : AliasRule.Rekeyed left right) (root : String) :
    (∀ projects, Agree AliasRule.Reordered
      (AliasRule.load left root projects) (AliasRule.load right root projects)) ∧
    (∀ projects mappings, AliasRule.loadMappings left root = .ok mappings →
      (AliasRule.Definite (AliasRule.ofMappings root projects mappings) ↔
        ∀ others, mappings.Perm others → AliasRule.ofMappings root projects mappings =
          AliasRule.ofMappings root projects others)) ∧
    ((∀ survey, Survey.make left root = .ok survey → AliasRule.Definite survey.rules) →
      Survey.make left root = Survey.make right root) ∧
    ((∀ survey, Survey.make left root = .ok survey → Uncontested left survey) →
      run left root = run right root) := by
  have surveys := Survey.make_rekeyed rekeyed root
  refine ⟨AliasRule.load_rekeyed rekeyed root, fun projects mappings loaded => ?_, ?_, ?_⟩
  · exact AliasRule.definite_iff (AliasRule.lookup_of_loadMappings loaded).1
  · intro definite
    revert surveys definite
    generalize Survey.make left root = survey
    generalize Survey.make right root = other
    rintro (error | reordered) definite
    · rfl
    · rw [reordered.eq_of_definite (definite _ rfl)]
  · intro uncontested
    rw [run, run]
    revert surveys uncontested
    generalize Survey.make left root = survey
    generalize Survey.make right root = other
    rintro (error | reordered) uncontested
    · rfl
    · exact congrArg Except.ok (ofSurvey_eq rekeyed reordered (uncontested _ rfl))

/-! ## A workspace with three projects -/

def sourceTree (workspace source options : List UInt8) : FileTree :=
  .directory [("w", .directory [
    ("angular.json", .file workspace),
    ("c", .directory [("x.ts", .file source)]),
    ("tsconfig.json", .file options)])]

theorem rekeyed_sourceTree (workspace source : List UInt8) {options others : List UInt8}
    (rewritten : AliasRule.Rewritten "tsconfig.json" options others) :
    AliasRule.Rekeyed (sourceTree workspace source options)
      (sourceTree workspace source others) := by
  refine ⟨"", .directory rfl (List.forall_mem_singleton.mpr (.directory rfl ?_))⟩
  refine List.forall_mem_cons.mpr ⟨.file (.inl rfl), List.forall_mem_cons.mpr ⟨?_, ?_⟩⟩
  · exact .directory rfl (List.forall_mem_singleton.mpr (.file (.inl rfl)))
  · exact List.forall_mem_singleton.mpr (.file rewritten)

def threeEntries : List (String × Json) :=
  [("a", .record [("root", .text "a")]), ("b", .record [("root", .text "b")]),
    ("c", .record [("root", .text "c")])]

def workspaceConfig : Json := .record [("projects", .record threeEntries)]

def threeProjects : List Project :=
  [⟨"a", .application, "a", none, "angular.json", "/w/a", "/w/a"⟩,
    ⟨"b", .application, "b", none, "angular.json", "/w/b", "/w/b"⟩,
    ⟨"c", .application, "c", none, "angular.json", "/w/c", "/w/c"⟩]

def mappedTree (mappings : List (String × Json)) : FileTree :=
  sourceTree (AliasRule.configContent workspaceConfig) (Text.Utf8.encode "import '@x/y'")
    (AliasRule.configContent (AliasRule.mappingConfig mappings))

def mappedSurvey (mappings : List (String × Json)) : Survey where
  root := "/w"
  config := "angular.json"
  projects := threeProjects
  owners := Project.sortByRoot threeProjects
  rules := AliasRule.ofMappings "/w" (Project.sortByRoot threeProjects) mappings

theorem loadMappings_mappedTree {mappings : List (String × Json)}
    (plain : (Json.record mappings).Plain) :
    AliasRule.loadMappings (mappedTree mappings) "/w" = .ok mappings := by
  have absent : (mappedTree mappings).readText? (Path.join "/w" "tsconfig.base.json") = none := by
    rfl
  have present : (mappedTree mappings).readText? (Path.join "/w" "tsconfig.json") =
      some (Text.ofFileLenient (AliasRule.configContent (AliasRule.mappingConfig mappings))) := by
    rfl
  have read := AliasRule.parse_configContent (AliasRule.plain_mappingConfig plain)
  have merged : AliasRule.mergeMappings [] mappings = mappings :=
    Json.ofFields_of_distinct (Json.plain_record.mp plain).1
  rw [AliasRule.loadMappings, AliasRule.mappingFiles, AliasRule.loadMappingsFrom]
  simp only [absent, AliasRule.loadMappingsFrom, present, readConfig, read]
  exact congrArg Except.ok merged

theorem make_mappedTree {mappings : List (String × Json)} (plain : (Json.record mappings).Plain) :
    Survey.make (mappedTree mappings) "/w" = .ok (mappedSurvey mappings) := by
  have present : (mappedTree mappings).readText? (Path.join "/w" "angular.json") =
      some (Text.ofFileLenient (AliasRule.configContent workspaceConfig)) := by
    rfl
  have read : Json.parse (Text.ofFileLenient (AliasRule.configContent workspaceConfig)) =
      .ok workspaceConfig :=
    AliasRule.parse_configContent (by simp [workspaceConfig, threeEntries, Json.DistinctNames])
  have registry : Registry.load (mappedTree mappings) "/w" =
      .ok ⟨"angular.json", threeEntries⟩ := by
    rw [Registry.load, WorkspaceError.candidates, Registry.loadFirst]
    simp only [present, readConfig, read]
    rfl
  have projects : Project.loadAll (mappedTree mappings) "/w" ⟨"angular.json", threeEntries⟩ =
      .ok threeProjects := by
    rfl
  have rules : AliasRule.load (mappedTree mappings) "/w" (Project.sortByRoot threeProjects) =
      .ok (AliasRule.ofMappings "/w" (Project.sortByRoot threeProjects) mappings) := by
    rw [AliasRule.load, loadMappings_mappedTree plain]
    rfl
  exact bind_eq_ok.mpr ⟨_, registry, bind_eq_ok.mpr ⟨_, projects, bind_eq_ok.mpr ⟨_, rules, rfl⟩⟩⟩

theorem rekeyed_mappedTree {mappings others : List (String × Json)}
    (plain : (Json.record mappings).Plain) (order : mappings.Perm others) :
    AliasRule.Rekeyed (mappedTree mappings) (mappedTree others) := by
  have otherPlain : (Json.record others).Plain := by
    rw [Json.plain_record] at plain ⊢
    exact ⟨plain.1.perm order, fun field member => plain.2 field (order.mem_iff.mpr member)⟩
  have read := AliasRule.parse_configContent (AliasRule.plain_mappingConfig plain)
  have otherRead := AliasRule.parse_configContent (AliasRule.plain_mappingConfig otherPlain)
  have remapped : AliasRule.Remapped (AliasRule.mappingConfig mappings)
      (AliasRule.mappingConfig others) :=
    @AliasRule.Remapped.paths [] [] [] [] mappings others order
  exact rekeyed_sourceTree _ _ (.inr ⟨by decide, .inr ⟨_, _, read, otherRead, remapped⟩⟩)

def apartMappings : List (String × Json) :=
  [("@y/*", .list [.text "b/*"]), ("@x/*", .list [.text "a/*"])]

def contestedMappings : List (String × Json) :=
  [("@x/*", .list [.text "b"]), ("@x", .list [.text "a"])]

theorem run_rekeyed_apartMappings :
    AliasRule.Rekeyed (mappedTree apartMappings) (mappedTree apartMappings.reverse) ∧
      run (mappedTree apartMappings) "/w" = run (mappedTree apartMappings.reverse) "/w" := by
  have plain : (Json.record apartMappings).Plain := by simp [apartMappings, Json.DistinctNames]
  have rekeyed : AliasRule.Rekeyed (mappedTree apartMappings) (mappedTree apartMappings.reverse) :=
    rekeyed_mappedTree plain (List.reverse_perm _).symm
  have definite : AliasRule.Definite (mappedSurvey apartMappings).rules := by decide +kernel
  refine ⟨rekeyed, (run_rekeyed rekeyed "/w").2.2.2 fun survey made => ?_⟩
  cases (make_mappedTree plain).symm.trans made
  exact fun _ _ _ _ specifier _ => definite.settled specifier

/-- The order of the two mappings decides in which order their rules are tried, and with it which
project an import leads to. -/
theorem rekeyed_contestedMappings :
    AliasRule.Rekeyed (mappedTree contestedMappings) (mappedTree contestedMappings.reverse) ∧
      AliasRule.load (mappedTree contestedMappings) "/w" threeProjects =
        .ok [⟨"@x", "b"⟩, ⟨"@x", "a"⟩] ∧
      AliasRule.load (mappedTree contestedMappings.reverse) "/w" threeProjects =
        .ok [⟨"@x", "a"⟩, ⟨"@x", "b"⟩] ∧
      (run (mappedTree contestedMappings) "/w").toOption.map (·.edges) =
        some [⟨"c", "b", ["c/x.ts"]⟩] ∧
      (run (mappedTree contestedMappings.reverse) "/w").toOption.map (·.edges) =
        some [⟨"c", "a", ["c/x.ts"]⟩] := by
  have plain : (Json.record contestedMappings).Plain := by
    simp [contestedMappings, Json.DistinctNames]
  have reversePlain : (Json.record contestedMappings.reverse).Plain := by
    simp [contestedMappings, Json.DistinctNames]
  refine ⟨rekeyed_mappedTree plain (List.reverse_perm _).symm, ?_, ?_, ?_, ?_⟩
  · rw [AliasRule.load, loadMappings_mappedTree plain]
    exact congrArg Except.ok (by decide +kernel)
  · rw [AliasRule.load, loadMappings_mappedTree reversePlain]
    exact congrArg Except.ok (by decide +kernel)
  · rw [run, make_mappedTree plain]
    exact congrArg some (by decide +kernel)
  · rw [run, make_mappedTree reversePlain]
    exact congrArg some (by decide +kernel)

end Scan

end WorkspaceGraph
