import WorkspaceGraph.Proofs.FileTree.Related
import WorkspaceGraph.Proofs.Json.Stable
import WorkspaceGraph.Proofs.Workspace.Aliases
/-!
Path mappings in another order. Config files that differ in it alone have the same projects, and
the same mappings as far as the order of these does not matter.
-/

namespace WorkspaceGraph

/-! ## Configs -/

namespace AliasRule

inductive Remapped : Json → Json → Prop
  | refl (config : Json) : Remapped config config
  | paths {before after optionsBefore optionsAfter mappings others : List (String × Json)}
      (order : mappings.Perm others) : Remapped
        (.record (before ++ ("compilerOptions", .record
          (optionsBefore ++ ("paths", .record mappings) :: optionsAfter)) :: after))
        (.record (before ++ ("compilerOptions", .record
          (optionsBefore ++ ("paths", .record others) :: optionsAfter)) :: after))

def RemappedText (left right : String) : Prop :=
  left = right ∨ ∃ config other,
    Json.parse left = .ok config ∧ Json.parse right = .ok other ∧ Remapped config other

def Rewritten (name : String) (left right : List UInt8) : Prop :=
  left = right ∨
    name ∈ mappingFiles ∧ RemappedText (Text.ofFileLenient left) (Text.ofFileLenient right)

def Rekeyed (left right : FileTree) : Prop := FileTree.Paired Rewritten left right

theorem lookup_between {name key : String} {before after : List (String × Json)}
    {value other : Json} :
    Json.lookup name (before ++ (key, value) :: after) =
        Json.lookup name (before ++ (key, other) :: after) ∨
      name = key ∧ Json.lookup name (before ++ (key, value) :: after) = some value ∧
        Json.lookup name (before ++ (key, other) :: after) = some other := by
  induction before with
  | nil =>
      rw [List.nil_append, List.nil_append, Json.lookup, Json.lookup]
      by_cases same : key = name
      · rw [if_pos (beq_iff_eq.mpr same), if_pos (beq_iff_eq.mpr same)]
        exact .inr ⟨same.symm, rfl, rfl⟩
      · rw [if_neg (by simpa using same), if_neg (by simpa using same)]
        exact .inl rfl
  | cons field rest induction =>
      rw [List.cons_append, List.cons_append, Json.lookup, Json.lookup]
      split
      · exact .inl rfl
      · exact induction

namespace Remapped

variable {left right : Json}

theorem same_fields (remapped : Remapped left right) :
    left = right ∨ ∃ fields others, left = .record fields ∧ right = .record others ∧
      ∀ name, name ≠ "compilerOptions" → Json.lookup name fields = Json.lookup name others := by
  cases remapped with
  | refl => exact .inl rfl
  | paths order =>
      refine .inr ⟨_, _, rfl, rfl, fun name different => ?_⟩
      exact lookup_between.resolve_right fun same => different same.1

theorem field?_eq (remapped : Remapped left right) {name : String}
    (different : name ≠ "compilerOptions") : left.field? name = right.field? name := by
  rcases remapped.same_fields with rfl | ⟨fields, others, rfl, rfl, same⟩
  · rfl
  · exact same name different

theorem mappingsOf_perm (remapped : Remapped left right) :
    (mappingsOf left).Perm (mappingsOf right) := by
  cases remapped with
  | refl => exact .refl _
  | paths order =>
      rw [mappingsOf, mappingsOf, Json.field?, Json.field?]
      rcases lookup_between with same | ⟨-, first, second⟩
      · rw [same]
      rw [first, second, Option.bind_some, Option.bind_some, Json.field?, Json.field?]
      rcases lookup_between with same | ⟨-, first, second⟩
      · rw [same]
      · rw [first, second]
        exact order

end Remapped

end AliasRule

open AliasRule

variable {left right : FileTree} {root : String}

/-! ## Reading -/

theorem readText?_rekeyed (rekeyed : Rekeyed left right) (path : String) :
    Option.Rel RemappedText (left.readText? path) (right.readText? path) := by
  refine FileTree.readText?_paired rekeyed (fun name content other held => ?_) path
  rcases held with rfl | ⟨-, remapped⟩
  · exact .inl rfl
  · exact remapped

theorem readConfig_remapped {kind : ConfigKind} {path text other : String}
    (remapped : RemappedText text other) :
    Agree (fun config other => Remapped config other ∧ config.Distinct ∧ other.Distinct)
      (readConfig kind path text) (readConfig kind path other) := by
  rcases remapped with rfl | ⟨config, otherConfig, parsed, otherParsed, remapped⟩
  · rw [readConfig]
    split
    · have distinct := Json.distinct_of_parse ‹_›
      exact .ok ⟨.refl _, distinct, distinct⟩
    · exact .error _
  · rw [readConfig, readConfig, parsed, otherParsed]
    exact .ok ⟨remapped, Json.distinct_of_parse parsed, Json.distinct_of_parse otherParsed⟩

theorem filesBelow_rekeyed (rekeyed : Rekeyed left right) (path : String) :
    Source.filesBelow left path = Source.filesBelow right path := by
  have unscanned : ∀ name ∈ mappingFiles, Source.isSourceFile name = false := by decide
  refine Source.filesBelow_eq (fun name content other held scanned => ?_) rekeyed path
  rcases held with same | ⟨isConfig, -⟩
  · exact same
  · rw [unscanned name isConfig] at scanned
    cases scanned

/-! ## Projects -/

namespace Registry

theorem ofConfig_eq {candidate : String} {config other : Json} (remapped : Remapped config other) :
    ofConfig candidate config = ofConfig candidate other := by
  rcases remapped.same_fields with rfl | ⟨fields, others, rfl, rfl, same⟩
  · rfl
  · rw [ofConfig, ofConfig, same "projects" (by decide)]

theorem loadFirst_eq (rekeyed : Rekeyed left right) (candidates : List String) :
    loadFirst left root candidates = loadFirst right root candidates := by
  induction candidates with
  | nil => rfl
  | cons candidate rest induction =>
      have texts := readText?_rekeyed rekeyed (Path.join root candidate)
      rw [loadFirst, loadFirst]
      revert texts
      generalize left.readText? _ = text
      generalize right.readText? _ = other
      rintro (remapped | none)
      · exact Agree.eq_iff.mp ((readConfig_remapped remapped).bind fun config other same =>
          Agree.eq_iff.mpr (ofConfig_eq same.1))
      · exact induction

theorem load_eq (rekeyed : Rekeyed left right) : load left root = load right root :=
  loadFirst_eq rekeyed _

end Registry

namespace Project

/-- The definitions differ at most in path mappings, which a project does not have. -/
structure Definition.Remapped (found other : Definition) : Prop where
  fields : AliasRule.Remapped found.fields other.fields
  configFilePath : found.configFilePath = other.configFilePath
  defaultRoot : found.defaultRoot = other.defaultRoot

namespace Definition.Remapped

variable {found other : Definition}

theorem rootOf_eq (remapped : found.Remapped other) : rootOf found = rootOf other := by
  have notOptions : "root" ≠ "compilerOptions" := by decide
  rw [rootOf, rootOf, remapped.fields.field?_eq notOptions, remapped.defaultRoot]

theorem sourceRootOf_eq (remapped : found.Remapped other) :
    sourceRootOf found = sourceRootOf other := by
  have notOptions : "sourceRoot" ≠ "compilerOptions" := by decide
  rw [sourceRootOf, sourceRootOf, remapped.fields.field?_eq notOptions]

end Definition.Remapped

theorem followReference_remapped (rekeyed : Rekeyed left right) (name reference : String) :
    Agree Definition.Remapped (followReference left root name reference)
      (followReference right root name reference) := by
  unfold followReference
  dsimp only
  generalize Path.resolve root [referencePath reference] = path
  have texts := readText?_rekeyed rekeyed path
  revert texts
  generalize left.readText? path = text
  generalize right.readText? path = other
  rintro (remapped | none)
  · have configs : Agree _ (readConfig .project path _) (readConfig .project path _) :=
      readConfig_remapped remapped
    revert configs
    dsimp only
    generalize readConfig _ path _ = config
    generalize readConfig _ path _ = otherConfig
    rintro (error | ⟨remapped, -, -⟩)
    · exact .error _
    · rcases remapped.same_fields with rfl | ⟨fields, others, rfl, rfl, -⟩
      · split
        · contradiction
        · rename_i same
          cases same
          exact .ok ⟨.refl _, rfl, rfl⟩
        · exact .error _
      · exact .ok ⟨remapped, rfl, rfl⟩
  · exact .error _

theorem definition_remapped (rekeyed : Rekeyed left right) (config name : String) (entry : Json) :
    Agree Definition.Remapped (definition left root config name entry)
      (definition right root config name entry) := by
  unfold definition
  split
  · exact followReference_remapped rekeyed name _
  · exact .ok ⟨.refl _, rfl, rfl⟩
  · exact .error _

theorem resolve_eq (rekeyed : Rekeyed left right) (config name : String) (entry : Json) :
    resolve left root config name entry = resolve right root config name entry := by
  have notOptions : "projectType" ≠ "compilerOptions" := by decide
  refine Agree.eq_iff.mp ((definition_remapped rekeyed config name entry).bind
    fun found other remapped => Agree.eq_iff.mpr ?_)
  simp only [remapped.rootOf_eq, remapped.sourceRootOf_eq, remapped.configFilePath,
    remapped.fields.field?_eq notOptions]

theorem resolveAll_eq (rekeyed : Rekeyed left right) (config : String)
    (entries : List (String × Json)) :
    resolveAll left root config entries = resolveAll right root config entries := by
  induction entries with
  | nil => rfl
  | cons entry rest induction =>
      rw [resolveAll, resolveAll, resolve_eq rekeyed, induction]

theorem loadAll_eq (rekeyed : Rekeyed left right) (registry : Registry) :
    loadAll left root registry = loadAll right root registry :=
  resolveAll_eq rekeyed _ _

end Project

/-! ## Mappings -/

namespace AliasRule

theorem mergeMappings_perm {known added knownOther addedOther : List (String × Json)}
    (names : Json.DistinctNames known) (order : known.Perm knownOther)
    (addedNames : Json.DistinctNames added) (addedOrder : added.Perm addedOther) :
    (mergeMappings known added).Perm (mergeMappings knownOther addedOther) := by
  have otherNames := names.perm order
  have addedOtherNames := addedNames.perm addedOrder
  rw [Json.perm_iff_lookup_eq (distinct_mergeMappings names) (distinct_mergeMappings otherNames)]
  intro name
  rw [lookup_mergeMappings addedNames, lookup_mergeMappings addedOtherNames,
    (Json.perm_iff_lookup_eq names otherNames).mp order,
    (Json.perm_iff_lookup_eq addedNames addedOtherNames).mp addedOrder]

theorem loadMappingsFrom_rekeyed (rekeyed : Rekeyed left right) (files : List String)
    {known others : List (String × Json)} (names : Json.DistinctNames known)
    (order : known.Perm others) :
    Agree (fun mappings others => Json.DistinctNames mappings ∧ mappings.Perm others)
      (loadMappingsFrom left root known files) (loadMappingsFrom right root others files) := by
  induction files generalizing known others with
  | nil => exact .ok ⟨names, order⟩
  | cons file rest induction =>
      have texts := readText?_rekeyed rekeyed (Path.join root file)
      rw [loadMappingsFrom, loadMappingsFrom]
      revert texts
      generalize left.readText? _ = text
      generalize right.readText? _ = other
      rintro (remapped | none)
      · refine (readConfig_remapped remapped).bind fun config other same => ?_
        rcases same with ⟨remapped, distinct, -⟩
        have added := distinct_mappingsOf distinct
        exact induction (distinct_mergeMappings names)
          (mergeMappings_perm names order added remapped.mappingsOf_perm)
      · exact induction names order

/-- The trees have the same mappings, in whichever order, or fail in the same way. -/
theorem loadMappings_rekeyed (rekeyed : Rekeyed left right) :
    Agree (fun mappings others => Json.DistinctNames mappings ∧ mappings.Perm others)
      (loadMappings left root) (loadMappings right root) :=
  loadMappingsFrom_rekeyed rekeyed mappingFiles .nil (.refl _)

end AliasRule

end WorkspaceGraph
