import Mathlib.Data.List.Sort
import WorkspaceGraph.Proofs.Json.Lines
import WorkspaceGraph.Proofs.Text.Blank
import WorkspaceGraph.Proofs.Workspace.Survey
/-!
Alias rules. They are read off the mappings of the config files, each mapping making at most one
rule, and tried from the longest base to the shortest, so that the most specific one decides.
-/

namespace WorkspaceGraph

namespace AliasRule

variable {tree : FileTree} {root : String} {projects : List Project} {rules : List AliasRule}

/-! ## Mappings -/

def declared? (tree : FileTree) (root pattern file : String) : Option Json := do
  let text ← tree.readText? (Path.join root file)
  let config ← (Json.parse text).toOption
  Json.lookup pattern (mappingsOf config)

/-- What a pattern is mapped to. What the workspace's own file says goes before what its base file
says. -/
def mapped? (tree : FileTree) (root pattern : String) : Option Json :=
  (declared? tree root pattern "tsconfig.json").or
    (declared? tree root pattern "tsconfig.base.json")

theorem distinct_mergeMappings {known added : List (String × Json)}
    (distinct : Json.DistinctNames known) : Json.DistinctNames (mergeMappings known added) := by
  rw [mergeMappings]
  induction added generalizing known with
  | nil => exact distinct
  | cons mapping rest induction => exact induction distinct.assign

theorem lookup_mergeMappings {known added : List (String × Json)}
    (distinct : Json.DistinctNames added) (pattern : String) :
    Json.lookup pattern (mergeMappings known added) =
      (Json.lookup pattern added).or (Json.lookup pattern known) := by
  rw [mergeMappings]
  induction added generalizing known with
  | nil => rfl
  | cons mapping rest induction =>
      have parts := List.pairwise_cons.mp distinct
      rw [List.foldl_cons, induction parts.2, Json.lookup_assign, Json.lookup]
      by_cases same : mapping.1 = pattern
      · have absent : Json.lookup pattern rest = none := by
          rw [Option.eq_none_iff_forall_ne_some]
          intro value found
          exact parts.1 _ (Json.mem_of_lookup found) same
        simp [same, absent]
      · simp [same]

theorem distinct_mappingsOf {config : Json} (distinct : config.Distinct) :
    Json.DistinctNames (mappingsOf config) := by
  rw [mappingsOf]
  cases options : config.field? "compilerOptions" with
  | none => exact .nil
  | some inner =>
      have innerDistinct := distinct.field? options
      cases paths : inner.field? "paths" with
      | none => simp [paths, Json.DistinctNames]
      | some value =>
          have valueDistinct := innerDistinct.field? paths
          cases valueDistinct with
          | record fields names each => simpa [paths, Json.record?] using names
          | _ => simp [paths, Json.record?, Json.DistinctNames]

theorem readConfig_eq_ok {kind : ConfigKind} {path text : String} {config : Json} :
    readConfig kind path text = .ok config ↔ Json.parse text = .ok config := by
  rw [readConfig]
  split
  · rename_i read
    rw [read, Except.ok.injEq, Except.ok.injEq]
  · rename_i read
    rw [read]
    simp

/-- What is loaded for a pattern is what the last file that declares it says. -/
theorem lookup_of_loadMappingsFrom {files : List String} {known mappings : List (String × Json)}
    (distinct : Json.DistinctNames known)
    (loaded : loadMappingsFrom tree root known files = .ok mappings) :
    Json.DistinctNames mappings ∧ ∀ pattern, Json.lookup pattern mappings =
      files.foldl (fun before file => (declared? tree root pattern file).or before)
        (Json.lookup pattern known) := by
  induction files generalizing known with
  | nil =>
      cases loaded
      exact ⟨distinct, fun pattern => rfl⟩
  | cons file rest induction =>
      rw [loadMappingsFrom] at loaded
      split at loaded
      · rename_i absent
        have undeclared : ∀ pattern, declared? tree root pattern file = none := fun pattern => by
          simp [declared?, absent]
        rcases induction distinct loaded with ⟨names, found⟩
        refine ⟨names, fun pattern => ?_⟩
        rw [found, List.foldl_cons, undeclared, Option.none_or]
      · rename_i text read
        rcases bind_eq_ok.mp loaded with ⟨config, configRead, loaded⟩
        have parsed := readConfig_eq_ok.mp configRead
        have declared : ∀ pattern, declared? tree root pattern file =
            Json.lookup pattern (mappingsOf config) := fun pattern => by
          simp [declared?, read, parsed, Except.toOption]
        have added := distinct_mappingsOf (Json.distinct_of_parse parsed)
        rcases induction (distinct_mergeMappings distinct) loaded with ⟨names, found⟩
        refine ⟨names, fun pattern => ?_⟩
        rw [found, List.foldl_cons, lookup_mergeMappings added, declared]

theorem lookup_of_loadMappings {mappings : List (String × Json)}
    (loaded : loadMappings tree root = .ok mappings) :
    Json.DistinctNames mappings ∧
      ∀ pattern, Json.lookup pattern mappings = mapped? tree root pattern := by
  have ⟨names, found⟩ := lookup_of_loadMappingsFrom .nil loaded
  refine ⟨names, fun pattern => (found pattern).trans ?_⟩
  rw [mapped?, mappingFiles, List.foldl_cons, List.foldl_cons, List.foldl_nil, Json.lookup,
    Option.or_none]

def Readable (tree : FileTree) (root : String) (files : List String) : Prop :=
  ∀ file ∈ files, ∀ text, tree.readText? (Path.join root file) = some text →
    ∃ config, Json.parse text = .ok config

theorem loadMappingsFrom_iff_readable {files : List String} {known : List (String × Json)} :
    (∃ mappings, loadMappingsFrom tree root known files = .ok mappings) ↔
      Readable tree root files := by
  induction files generalizing known with
  | nil => exact ⟨fun _ => nofun, fun _ => ⟨known, rfl⟩⟩
  | cons file rest induction =>
      rw [loadMappingsFrom, Readable, List.forall_mem_cons, ← Readable]
      split
      · rename_i absent
        rw [induction]
        exact ⟨fun readable => ⟨by simp [absent], readable⟩, fun readable => readable.2⟩
      · rename_i text read
        constructor
        · rintro ⟨mappings, loaded⟩
          rcases bind_eq_ok.mp loaded with ⟨config, configRead, loaded⟩
          refine ⟨fun other otherRead => ?_, induction.mp ⟨mappings, loaded⟩⟩
          cases read.symm.trans otherRead
          exact ⟨config, readConfig_eq_ok.mp configRead⟩
        · rintro ⟨parses, readable⟩
          have ⟨config, parsed⟩ := parses text read
          have ⟨mappings, loaded⟩ : ∃ mappings, loadMappingsFrom tree root
              (mergeMappings known (mappingsOf config)) rest = .ok mappings :=
            induction.mpr readable
          exact ⟨mappings, bind_eq_ok.mpr ⟨config, readConfig_eq_ok.mpr parsed, loaded⟩⟩

/-! ## What a mapping makes -/

def Stems (pattern base : String) : Prop :=
  pattern.toList = base.toList ++ ['/', '*'] ∨ pattern = base ∧ ¬['/', '*'] <:+ pattern.toList

/-- The mapping of the pattern makes the rule: the project is the owner of the first target that has
one. -/
structure Makes (root : String) (projects : List Project) (pattern : String) (targets : Json)
    (rule : AliasRule) : Prop where
  notBlank : ¬∀ char ∈ pattern.toList, Text.isBlank char
  stems : Stems pattern rule.base
  base : rule.base ≠ ""
  first : ∃ before target after, targets = .list (before ++ target :: after) ∧
    targetOwner? root target projects = some rule.project ∧
    ∀ other ∈ before, targetOwner? root other projects = none

theorem getD_withoutEnding?_eq_iff {pattern base : String} :
    (Project.withoutEnding? pattern "/*").getD pattern = base ↔ Stems pattern base := by
  have ending : "/*".toList = ['/', '*'] := by decide
  rw [Project.withoutEnding?, ending, Stems]
  by_cases wild : ['/', '*'] <:+ pattern.toList
  · have isSuffix : ['/', '*'].isSuffixOf pattern.toList = true :=
      List.isSuffixOf_iff_suffix.mpr wild
    rcases wild with ⟨stem, shape⟩
    have cut : pattern.toList.take (pattern.length - "/*".length) = stem := by
      have length : "/*".length = 2 := by decide
      rw [← String.length_toList, length, ← shape, List.length_append]
      exact List.take_left' (by simp)
    rw [if_pos isSuffix, Option.getD_some, cut]
    constructor
    · intro same
      refine .inl ?_
      rw [← same, String.toList_ofList, shape]
    · rintro (other | ⟨_, notWild⟩)
      · refine String.toList_injective ?_
        rw [String.toList_ofList]
        exact List.append_cancel_right (shape.trans other)
      · exact absurd ⟨stem, shape⟩ notWild
  · have notSuffix : ¬['/', '*'].isSuffixOf pattern.toList = true := fun isSuffix =>
      wild (List.isSuffixOf_iff_suffix.mp isSuffix)
    rw [if_neg notSuffix, Option.getD_none]
    constructor
    · intro same
      exact .inr ⟨same, wild⟩
    · rintro (other | ⟨same, _⟩)
      · exact absurd ⟨_, other.symm⟩ wild
      · exact same

theorem ofMapping?_eq_some_iff {pattern : String} {targets : Json} {rule : AliasRule} :
    ofMapping? root projects (pattern, targets) = some rule ↔
      Makes root projects pattern targets rule := by
  constructor
  · intro made
    unfold ofMapping? at made
    split at made
    · rename_i items listed
      split at made
      · cases made
      · rename_i base stemmed
        split at made
        · cases made
        · rename_i notEmpty
          rcases Option.map_eq_some_iff.mp made with ⟨project, found, rfl⟩
          rw [baseOf?] at stemmed
          split at stemmed
          · cases stemmed
          · rename_i notBlank
            rcases List.findSome?_eq_some_iff.mp found with
              ⟨before, target, after, shape, owned, first⟩
            refine ⟨fun blank => notBlank (Text.trimmed?_isNone_iff.mpr blank), ?_, ?_,
              before, target, after, ?_, owned, first⟩
            · exact getD_withoutEnding?_eq_iff.mp (Option.some.inj stemmed)
            · exact fun empty => notEmpty (String.isEmpty_iff.mpr empty)
            · exact listed.trans (congrArg _ shape)
    · cases made
  · rintro ⟨notBlank, stems, base, before, target, after, rfl, owned, first⟩
    have some : ¬(Text.trimmed? pattern).isNone = true := fun none =>
      notBlank (Text.trimmed?_isNone_iff.mp none)
    have stemmed : baseOf? pattern = Option.some rule.base := by
      rw [baseOf?, if_neg some, getD_withoutEnding?_eq_iff.mpr stems]
    have notEmpty : ¬rule.base.isEmpty = true := fun empty => base (String.isEmpty_iff.mp empty)
    have found : (before ++ target :: after).findSome? (targetOwner? root · projects) =
        Option.some rule.project :=
      List.findSome?_eq_some_iff.mpr ⟨before, target, after, rfl, owned, first⟩
    simp only [ofMapping?, stemmed, if_neg notEmpty, found]
    rfl

/-! ## The order of rules -/

theorem precedes_iff {left right : AliasRule} : precedes left right = true ↔
    right.base.length < left.base.length ∨
      right.base.length = left.base.length ∧ left.base ≤ right.base := by
  rw [precedes]
  split
  · rename_i same
    simp [beq_iff_eq.mp same]
  · rename_i different
    have different : ¬right.base.length = left.base.length := fun same =>
      different (beq_iff_eq.mpr same.symm)
    simp [different]

theorem base_eq_of_precedes {left right : AliasRule} (forth : precedes left right = true)
    (back : precedes right left = true) : left.base = right.base := by
  rcases precedes_iff.mp forth with longer | ⟨same, bases⟩
  · rcases precedes_iff.mp back with _ | ⟨_, _⟩ <;> omega
  · rcases precedes_iff.mp back with _ | ⟨_, basesBack⟩
    · omega
    · exact String.le_antisymm bases basesBack

instance : Std.Total fun left right => precedes left right = true where
  total left right := by
    rw [precedes_iff, precedes_iff]
    rcases Nat.lt_trichotomy left.base.length right.base.length with shorter | same | longer
    · exact .inr (.inl shorter)
    · rcases String.le_total left.base right.base with first | first
      · exact .inl (.inr ⟨same.symm, first⟩)
      · exact .inr (.inr ⟨same, first⟩)
    · exact .inl (.inl longer)

instance : IsTrans AliasRule fun left right => precedes left right = true where
  trans first second third left right := by
    rw [precedes_iff] at left right ⊢
    rcases left with longer | ⟨same, bases⟩
    · exact .inl (by omega)
    · rcases right with longer | ⟨sameNext, basesNext⟩
      · exact .inl (by omega)
      · exact .inr ⟨sameNext.trans same, String.le_trans bases basesNext⟩

theorem sort_sorted (rules : List AliasRule) :
    (sort rules).Pairwise fun left right => precedes left right := by
  rw [sort_eq_insertionSort]
  exact List.pairwise_insertionSort ..

/-! ## Repeated rules -/

theorem mem_dropRepeated {rule : AliasRule} : rule ∈ dropRepeated rules ↔ rule ∈ rules := by
  refine ⟨fun member => (dropRepeated_sublist rules).subset member, fun member => ?_⟩
  induction rules with
  | nil => cases member
  | cons first rest induction =>
      cases rest with
      | nil => exact member
      | cons next more =>
          rw [dropRepeated]
          split
          · rename_i same
            rcases List.mem_cons.mp member with rfl | inside
            · exact induction (List.mem_cons.mpr (.inl (beq_iff_eq.mp same)))
            · exact induction inside
          · exact (List.mem_cons.mp member).elim (fun same => List.mem_cons.mpr (.inl same))
              fun inside => List.mem_cons_of_mem _ (induction inside)

def AtMostTwice (rules : List AliasRule) : Prop :=
  ∀ base, (rules.filter (·.base = base)).length ≤ 2

theorem AtMostTwice.tail {rule : AliasRule} (twice : AtMostTwice (rule :: rules)) :
    AtMostTwice rules := by
  intro base
  have sub : (rules.filter (·.base = base)).Sublist ((rule :: rules).filter (·.base = base)) :=
    (List.sublist_cons_self rule rules).filter _
  exact sub.length_le.trans (twice base)

/-- Equal rules stand side by side, as there are at most two with one base. -/
theorem nodup_dropRepeated (sorted : rules.Pairwise fun left right => precedes left right)
    (twice : AtMostTwice rules) : (dropRepeated rules).Nodup := by
  induction rules with
  | nil => exact .nil
  | cons rule rest induction =>
      cases rest with
      | nil => exact List.nodup_singleton rule
      | cons next more =>
          have parts := List.pairwise_cons.mp sorted
          have inner := induction parts.2 twice.tail
          rw [dropRepeated]
          split
          · exact inner
          · rename_i different
            refine List.nodup_cons.mpr ⟨fun member => ?_, inner⟩
            rcases List.mem_cons.mp (mem_dropRepeated.mp member) with same | again
            · exact different (beq_iff_eq.mpr same)
            · -- The rule comes again after the next one, which then has its base, too.
              have forth := parts.1 next (List.mem_cons_self ..)
              have back := (List.pairwise_cons.mp parts.2).1 rule again
              have between : rule.base = next.base := base_eq_of_precedes forth back
              have third : 0 < (more.filter (·.base = rule.base)).length :=
                List.length_pos_of_mem (List.mem_filter.mpr ⟨again, decide_eq_true rfl⟩)
              have counted := twice rule.base
              simp only [List.filter_cons, between.symm, decide_true, if_true,
                List.length_cons] at counted
              omega

theorem length_filter_filterMap_le {α β : Type} {make : α → Option β} {kept : β → Bool}
    {candidate : α → Bool}
    (implied : ∀ entry value, make entry = some value → kept value → candidate entry)
    (entries : List α) :
    ((entries.filterMap make).filter kept).length ≤ (entries.filter candidate).length := by
  induction entries with
  | nil => exact Nat.le_refl 0
  | cons entry rest induction =>
      cases made : make entry with
      | none =>
          rw [List.filterMap_cons_none made]
          exact induction.trans ((List.sublist_cons_self entry rest).filter candidate).length_le
      | some value =>
          rw [List.filterMap_cons_some made]
          cases keeps : kept value with
          | false =>
              rw [List.filter_cons_of_neg (by simp [keeps])]
              exact induction.trans ((List.sublist_cons_self entry rest).filter candidate).length_le
          | true =>
              rw [List.filter_cons_of_pos keeps, List.filter_cons_of_pos (implied _ _ made keeps)]
              exact Nat.succ_le_succ induction

def patternsOf (base : String) : List String :=
  [base, String.ofList (base.toList ++ ['/', '*'])]

theorem pattern_of_stems {pattern base : String} (stems : Stems pattern base) :
    pattern ∈ patternsOf base := by
  rcases stems with wild | ⟨same, _⟩
  · refine List.mem_cons_of_mem _ (List.mem_singleton.mpr (String.toList_injective ?_))
    rw [String.toList_ofList, wild]
  · rw [same]
    exact List.mem_cons_self ..

theorem atMostTwice_of_distinct {mappings : List (String × Json)}
    (distinct : Json.DistinctNames mappings) :
    AtMostTwice (mappings.filterMap (ofMapping? root projects)) := by
  intro base
  have made : ((mappings.filterMap (ofMapping? root projects)).filter (·.base = base)).length ≤
      (mappings.filter (·.1 ∈ patternsOf base)).length := by
    refine length_filter_filterMap_le (fun mapping rule made based => ?_) mappings
    have makes := ofMapping?_eq_some_iff.mp made
    rw [decide_eq_true_iff] at based ⊢
    rw [← based]
    exact pattern_of_stems makes.stems
  have names : ((mappings.filter (·.1 ∈ patternsOf base)).map (·.1)).Nodup :=
    List.pairwise_map.mpr (distinct.sublist List.filter_sublist)
  have within : (mappings.filter (·.1 ∈ patternsOf base)).map (·.1) ⊆ patternsOf base := by
    intro pattern member
    rcases List.mem_map.mp member with ⟨mapping, inside, rfl⟩
    exact of_decide_eq_true (List.mem_filter.mp inside).2
  have few := (List.subperm_of_subset names within).length_le
  rw [List.length_map] at few
  exact made.trans few

/-! ## The rules of a list of mappings -/

section ofMappings

variable {mappings : List (String × Json)}

theorem mem_ofMappings {rule : AliasRule} : rule ∈ ofMappings root projects mappings ↔
    ∃ mapping ∈ mappings, ofMapping? root projects mapping = some rule := by
  rw [ofMappings, mem_dropRepeated, (sort_perm _).mem_iff, List.mem_filterMap]

theorem sorted_ofMappings (mappings : List (String × Json)) :
    (ofMappings root projects mappings).Pairwise fun left right => precedes left right :=
  (sort_sorted _).sublist (dropRepeated_sublist _)

theorem nodup_ofMappings (distinct : Json.DistinctNames mappings) :
    (ofMappings root projects mappings).Nodup := by
  refine nodup_dropRepeated (sort_sorted _) fun base => ?_
  rw [((sort_perm _).filter _).length_eq]
  exact atMostTwice_of_distinct distinct base

end ofMappings

/-! ## Resolving -/

def Covers (rule : AliasRule) (specifier : String) : Prop :=
  specifier = rule.base ∨ ∃ rest, specifier.toList = rule.base.toList ++ '/' :: rest

theorem isMatch_iff {rule : AliasRule} {specifier : String} :
    rule.isMatch specifier = true ↔ rule.Covers specifier := by
  rw [isMatch, Bool.or_eq_true, beq_iff_eq, List.isPrefixOf_iff_prefix, Covers]
  refine or_congr_right (exists_congr fun rest => ?_)
  rw [List.append_assoc, List.singleton_append]
  exact eq_comm

/-- The rules are exactly those that the mappings make, each is there once, and of those that cover
a specifier one with the longest base decides. -/
structure Specific (tree : FileTree) (root : String) (projects : List Project)
    (rules : List AliasRule) : Prop where
  base : ∀ rule ∈ rules, rule.base ≠ ""
  once : rules.Nodup
  made : ∀ rule, rule ∈ rules ↔ ∃ pattern targets, mapped? tree root pattern = some targets ∧
    Makes root projects pattern targets rule
  external : ∀ owners file specifier, specifier.toList.head? ≠ some '.' →
    (Resolution.projectOf? rules owners file specifier = none ↔
      ∀ rule ∈ rules, ¬rule.Covers specifier)
  longest : ∀ owners file specifier target, specifier.toList.head? ≠ some '.' →
    Resolution.projectOf? rules owners file specifier = some target →
    ∃ rule ∈ rules, rule.Covers specifier ∧ rule.project = target ∧
      ∀ other ∈ rules, other.Covers specifier → other.base.length ≤ rule.base.length

theorem projectOf?_bare {owners : List Project} {file specifier : String}
    (bare : specifier.toList.head? ≠ some '.') :
    Resolution.projectOf? rules owners file specifier =
      (rules.find? (·.isMatch specifier)).map (·.project) := by
  rw [Resolution.projectOf?, if_neg (by simpa using bare)]

theorem projectOf?_eq_none_iff {owners : List Project} {file specifier : String}
    (bare : specifier.toList.head? ≠ some '.') :
    Resolution.projectOf? rules owners file specifier = none ↔
      ∀ rule ∈ rules, ¬rule.Covers specifier := by
  rw [projectOf?_bare bare, Option.map_eq_none_iff, List.find?_eq_none]
  exact forall₂_congr fun rule _ => not_congr isMatch_iff

/-- The first rule that covers a specifier has the longest base. -/
theorem exists_longest (sorted : rules.Pairwise fun left right => precedes left right)
    {owners : List Project} {file specifier target : String}
    (bare : specifier.toList.head? ≠ some '.')
    (found : Resolution.projectOf? rules owners file specifier = some target) :
    ∃ rule ∈ rules, rule.Covers specifier ∧ rule.project = target ∧
      ∀ other ∈ rules, other.Covers specifier → other.base.length ≤ rule.base.length := by
  rw [projectOf?_bare bare] at found
  rcases Option.map_eq_some_iff.mp found with ⟨rule, found, named⟩
  rcases List.find?_eq_some_iff_append.mp found with ⟨matched, before, after, rfl, first⟩
  refine ⟨rule, by simp, isMatch_iff.mp matched, named, fun other member covers => ?_⟩
  rcases List.mem_append.mp member with inside | inside
  · have unmatched := first other inside
    rw [isMatch_iff.mpr covers] at unmatched
    cases unmatched
  · rcases List.mem_cons.mp inside with rfl | inside
    · exact Nat.le_refl _
    · have precedes := (List.pairwise_cons.mp (List.pairwise_append.mp sorted).2.1).1 other inside
      rcases precedes_iff.mp precedes with longer | ⟨same, _⟩
      · exact Nat.le_of_lt longer
      · exact Nat.le_of_eq same

theorem specific_of_load (loaded : load tree root projects = .ok rules) :
    Specific tree root projects rules := by
  rcases map_eq_ok.mp loaded with ⟨mappings, mapped, rfl⟩
  have ⟨names, found⟩ := lookup_of_loadMappings mapped
  have made : ∀ rule, rule ∈ ofMappings root projects mappings ↔
      ∃ pattern targets, mapped? tree root pattern = some targets ∧
        Makes root projects pattern targets rule := by
    intro rule
    rw [mem_ofMappings]
    constructor
    · rintro ⟨⟨pattern, targets⟩, member, made⟩
      refine ⟨pattern, targets, ?_, ofMapping?_eq_some_iff.mp made⟩
      rw [← found]
      exact (Json.lookup_eq_some_iff names).mpr member
    · rintro ⟨pattern, targets, mapped, makes⟩
      rw [← found] at mapped
      exact ⟨⟨pattern, targets⟩, Json.mem_of_lookup mapped, ofMapping?_eq_some_iff.mpr makes⟩
  refine ⟨fun rule member => ?_, nodup_ofMappings names, made, ?_, ?_⟩
  · have ⟨_, _, _, makes⟩ := (made rule).mp member
    exact makes.base
  · exact fun owners file specifier bare => projectOf?_eq_none_iff bare
  · exact fun owners file specifier target bare => exists_longest (sorted_ofMappings _) bare

/-- Whenever the config files can be read there are rules, and then they are specific. -/
theorem load_specific (tree : FileTree) (root : String) (projects : List Project) :
    ((∃ rules, load tree root projects = .ok rules) ↔ Readable tree root mappingFiles) ∧
    ∀ rules, load tree root projects = .ok rules → Specific tree root projects rules := by
  refine ⟨?_, fun rules => specific_of_load⟩
  rw [← loadMappingsFrom_iff_readable, ← loadMappings]
  constructor
  · rintro ⟨rules, loaded⟩
    have ⟨mappings, mapped, _⟩ := map_eq_ok.mp loaded
    exact ⟨mappings, mapped⟩
  · rintro ⟨mappings, mapped⟩
    exact ⟨_, map_eq_ok.mpr ⟨mappings, mapped, rfl⟩⟩

def configContent (config : Json) : List UInt8 := Text.Utf8.encode (config.render .compact)

def mappingConfig (mappings : List (String × Json)) : Json :=
  .record [("compilerOptions", .record [("paths", .record mappings)])]

theorem plain_mappingConfig {mappings : List (String × Json)}
    (plain : (Json.record mappings).Plain) : (mappingConfig mappings).Plain := by
  simpa [mappingConfig, Json.DistinctNames] using plain

theorem parse_configContent {config : Json} (plain : config.Plain) :
    Json.parse (Text.ofFileLenient (configContent config)) = .ok config := by
  have noReturn : '\r' ∉ (config.render .compact).toList := by
    rw [Json.render, String.toList_ofList]
    exact Json.return_not_mem_write (by decide) (by decide) plain 0
  rw [configContent, Text.ofFileLenient_encode noReturn,
    Json.parse_render Json.readable_compact plain]

def layeredTree (base own : List (String × Json)) : FileTree :=
  .directory [("w", .directory [
    ("tsconfig.base.json", .file (configContent (mappingConfig base))),
    ("tsconfig.json", .file (configContent (mappingConfig own)))])]

theorem loadMappings_layeredTree {base own : List (String × Json)}
    (basePlain : (Json.record base).Plain) (ownPlain : (Json.record own).Plain) :
    loadMappings (layeredTree base own) "/w" = .ok (mergeMappings base own) := by
  have baseText : (layeredTree base own).readText? (Path.join "/w" "tsconfig.base.json") =
      some (Text.ofFileLenient (configContent (mappingConfig base))) := by
    rfl
  have ownText : (layeredTree base own).readText? (Path.join "/w" "tsconfig.json") =
      some (Text.ofFileLenient (configContent (mappingConfig own))) := by
    rfl
  have baseRead := parse_configContent (plain_mappingConfig basePlain)
  have ownRead := parse_configContent (plain_mappingConfig ownPlain)
  have merged : mergeMappings [] base = base :=
    Json.ofFields_of_distinct (Json.plain_record.mp basePlain).1
  rw [loadMappings, mappingFiles, loadMappingsFrom]
  simp only [baseText, ownText, loadMappingsFrom, readConfig, baseRead, ownRead]
  exact congrArg (fun known => Except.ok (mergeMappings known own)) merged

def baseMappings : List (String × Json) :=
  [("@x", .texts ["gone", "a"]), ("@x/*", .texts ["a/*"]), ("@x/sub", .texts ["a"]),
    (" ", .texts ["a"]), ("/*", .texts ["a"])]

def ownMappings : List (String × Json) := [("@x/sub", .texts ["b"])]

def layeredProjects : List Project :=
  [⟨"a", .library, "a", none, "angular.json", "/w/a", "/w/a"⟩,
    ⟨"b", .library, "b", none, "angular.json", "/w/b", "/w/b"⟩]

theorem load_specific_layered :
    load (layeredTree baseMappings ownMappings) "/w" layeredProjects =
        .ok [⟨"@x/sub", "b"⟩, ⟨"@x", "a"⟩] ∧
      Specific (layeredTree baseMappings ownMappings) "/w" layeredProjects
        [⟨"@x/sub", "b"⟩, ⟨"@x", "a"⟩] := by
  have basePlain : (Json.record baseMappings).Plain := by
    simp [baseMappings, Json.DistinctNames]
  have ownPlain : (Json.record ownMappings).Plain := by simp [ownMappings, Json.DistinctNames]
  have loaded : load (layeredTree baseMappings ownMappings) "/w" layeredProjects =
      .ok [⟨"@x/sub", "b"⟩, ⟨"@x", "a"⟩] := by
    rw [load, loadMappings_layeredTree basePlain ownPlain]
    exact congrArg Except.ok (by decide +kernel)
  exact ⟨loaded, (load_specific _ "/w" layeredProjects).2 _ loaded⟩

end AliasRule

end WorkspaceGraph
