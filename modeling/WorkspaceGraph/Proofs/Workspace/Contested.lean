import WorkspaceGraph.Proofs.Json.Stable
import WorkspaceGraph.Proofs.Workspace.Aliases
/-!
Contested bases. Rules stand in the order of their bases, so what the order of the mappings can
decide is which of two rules with one base is tried first. That matters only if the two lead to
different projects.
-/

namespace WorkspaceGraph.AliasRule

variable {root : String} {projects : List Project} {rules others : List AliasRule}
  {mappings : List (String × Json)}

def Definite (rules : List AliasRule) : Prop :=
  ∀ rule ∈ rules, ∀ other ∈ rules, rule.base = other.base → rule.project = other.project

instance (rules : List AliasRule) : Decidable (Definite rules) :=
  inferInstanceAs (Decidable (∀ rule ∈ rules, ∀ other ∈ rules, _ → _))

structure Longest (rules : List AliasRule) (specifier : String) (rule : AliasRule) : Prop where
  member : rule ∈ rules
  covers : rule.Covers specifier
  longest : ∀ other ∈ rules, other.Covers specifier → other.base.length ≤ rule.base.length

def Settled (rules : List AliasRule) (specifier : String) : Prop :=
  ∀ rule other, Longest rules specifier rule → Longest rules specifier other →
    rule.project = other.project

theorem Longest.perm {specifier : String} {rule : AliasRule}
    (longest : Longest rules specifier rule) (same : rules.Perm others) :
    Longest others specifier rule :=
  ⟨same.mem_iff.mp longest.member, longest.covers,
    fun other member => longest.longest other (same.mem_iff.mpr member)⟩

theorem Covers.begins {rule : AliasRule} {specifier : String} (covers : rule.Covers specifier) :
    rule.base.toList <+: specifier.toList := by
  rcases covers with rfl | ⟨rest, whole⟩
  · exact List.prefix_rfl
  · exact ⟨'/' :: rest, whole.symm⟩

theorem Longest.base_eq {specifier : String} {rule other : AliasRule}
    (longest : Longest rules specifier rule) (otherLongest : Longest rules specifier other) :
    rule.base = other.base := by
  have atMost := otherLongest.longest rule longest.member longest.covers
  have atLeast := longest.longest other otherLongest.member otherLongest.covers
  rw [← String.length_toList, ← String.length_toList] at atMost atLeast
  have inside := List.prefix_of_prefix_length_le longest.covers.begins otherLongest.covers.begins
    atMost
  exact String.toList_injective (inside.eq_of_length (Nat.le_antisymm atMost atLeast))

theorem Definite.settled (definite : Definite rules) (specifier : String) :
    Settled rules specifier := fun _ _ longest otherLongest =>
  definite _ longest.member _ otherLongest.member (longest.base_eq otherLongest)

theorem longest_of_projectOf?
    (sorted : rules.Pairwise fun left right => precedes left right)
    {owners : List Project} {file specifier target : String}
    (bare : specifier.toList.head? ≠ some '.')
    (found : Resolution.projectOf? rules owners file specifier = some target) :
    ∃ rule, Longest rules specifier rule ∧ rule.project = target := by
  have ⟨rule, member, covers, same, longest⟩ := exists_longest sorted bare found
  exact ⟨rule, ⟨member, covers, longest⟩, same⟩

/-! ## Rules in another order -/

/-- The rules are the same up to the order of those with one base, which matters only where it
decides between projects. -/
structure Reordered (rules others : List AliasRule) : Prop where
  perm : rules.Perm others
  bases : rules.map (·.base) = others.map (·.base)
  definite : Definite rules → rules = others
  settled : ∀ owners file specifier, Settled rules specifier →
    Resolution.projectOf? rules owners file specifier =
      Resolution.projectOf? others owners file specifier

theorem projectOf?_eq_of_settled
    (sorted : rules.Pairwise fun left right => precedes left right)
    (othersSorted : others.Pairwise fun left right => precedes left right)
    (same : rules.Perm others) (owners : List Project) (file specifier : String)
    (settled : Settled rules specifier) :
    Resolution.projectOf? rules owners file specifier =
      Resolution.projectOf? others owners file specifier := by
  by_cases relative : specifier.toList.head? = some '.'
  · rw [Resolution.projectOf?, Resolution.projectOf?, if_pos (by simpa using relative),
      if_pos (by simpa using relative)]
  · cases found : Resolution.projectOf? rules owners file specifier with
    | none =>
        have uncovered := (projectOf?_eq_none_iff relative).mp found
        refine ((projectOf?_eq_none_iff relative).mpr fun rule member => ?_).symm
        exact uncovered rule (same.mem_iff.mpr member)
    | some target =>
        rcases longest_of_projectOf? sorted relative found with ⟨rule, longest, leads⟩
        cases otherFound : Resolution.projectOf? others owners file specifier with
        | none =>
            have uncovered := (projectOf?_eq_none_iff relative).mp otherFound
            exact absurd longest.covers (uncovered rule (same.mem_iff.mp longest.member))
        | some otherTarget =>
            rcases longest_of_projectOf? othersSorted relative otherFound with
              ⟨other, otherLongest, otherLeads⟩
            rw [← leads, ← otherLeads, settled rule other longest (otherLongest.perm same.symm)]

theorem bases_eq_of_perm (sorted : rules.Pairwise fun left right => precedes left right)
    (othersSorted : others.Pairwise fun left right => precedes left right)
    (same : rules.Perm others) : rules.map (·.base) = others.map (·.base) := by
  have antisymm : ∀ left right : String, left ∈ rules.map (·.base) →
      right ∈ others.map (·.base) → precedes ⟨left, ""⟩ ⟨right, ""⟩ = true →
      precedes ⟨right, ""⟩ ⟨left, ""⟩ = true → left = right :=
    fun left right _ _ forth back => base_eq_of_precedes forth back
  have byBase : ∀ {rule other : AliasRule}, precedes rule other = true →
      precedes ⟨rule.base, ""⟩ ⟨other.base, ""⟩ = true :=
    fun forth => precedes_iff.mpr (precedes_iff.mp forth)
  exact List.Perm.eq_of_pairwise antisymm (List.pairwise_map.mpr (sorted.imp byBase))
    (List.pairwise_map.mpr (othersSorted.imp byBase)) (same.map _)

theorem eq_of_definite (sorted : rules.Pairwise fun left right => precedes left right)
    (othersSorted : others.Pairwise fun left right => precedes left right)
    (same : rules.Perm others) (definite : Definite rules) : rules = others := by
  have antisymm : ∀ rule other, rule ∈ rules → other ∈ others → precedes rule other = true →
      precedes other rule = true → rule = other := by
    intro rule other member otherMember forth back
    have bases := base_eq_of_precedes forth back
    have projects := definite rule member other (same.mem_iff.mpr otherMember) bases
    cases rule
    cases other
    cases bases
    cases projects
    rfl
  exact List.Perm.eq_of_pairwise antisymm sorted othersSorted same

theorem reordered_of_perm (sorted : rules.Pairwise fun left right => precedes left right)
    (othersSorted : others.Pairwise fun left right => precedes left right)
    (same : rules.Perm others) : Reordered rules others where
  perm := same
  bases := bases_eq_of_perm sorted othersSorted same
  definite := eq_of_definite sorted othersSorted same
  settled := projectOf?_eq_of_settled sorted othersSorted same

/-- Mappings in another order make the same rules, up to the order of those with one base. -/
theorem ofMappings_reordered {mappings others : List (String × Json)}
    (distinct : Json.DistinctNames mappings) (same : mappings.Perm others) :
    Reordered (ofMappings root projects mappings) (ofMappings root projects others) := by
  refine reordered_of_perm (sorted_ofMappings _) (sorted_ofMappings _) ?_
  rw [List.perm_ext_iff_of_nodup (nodup_ofMappings distinct)
    (nodup_ofMappings (distinct.perm same))]
  intro rule
  rw [mem_ofMappings, mem_ofMappings]
  exact exists_congr fun mapping => and_congr_left fun _ => same.mem_iff

/-! ## Where the order decides -/

theorem pair_sublist_dropRepeated {first second : AliasRule} (different : first ≠ second)
    (inside : [first, second].Sublist rules) : [first, second].Sublist (dropRepeated rules) := by
  induction rules with
  | nil => cases inside
  | cons rule rest induction =>
      cases rest with
      | nil => exact inside
      | cons next more =>
          rw [dropRepeated]
          split
          · rename_i same
            refine induction ?_
            cases inside with
            | cons _ inside => exact inside
            | cons_cons _ inside =>
                rw [← beq_iff_eq.mp same] at inside ⊢
                cases inside with
                | cons _ inside => exact inside.cons_cons _
                | cons_cons => exact absurd rfl different
          · cases inside with
            | cons _ inside => exact (induction inside).cons _
            | cons_cons _ inside =>
                refine List.Sublist.cons_cons _ (List.singleton_sublist.mpr ?_)
                exact mem_dropRepeated.mpr (List.singleton_sublist.mp inside)

/-- Of two rules with one base the one whose mapping comes first is tried first. -/
theorem pair_sublist_ofMappings {first second : AliasRule} (different : first ≠ second)
    (bases : first.base = second.base)
    (inside : [first, second].Sublist (mappings.filterMap (ofMapping? root projects))) :
    [first, second].Sublist (ofMappings root projects mappings) := by
  have precedes : precedes first second = true :=
    precedes_iff.mpr (.inr ⟨congrArg _ bases.symm, bases ▸ String.le_refl _⟩)
  refine pair_sublist_dropRepeated different ?_
  rw [sort_eq_insertionSort]
  exact List.sublist_insertionSort (List.pairwise_pair.mpr precedes) inside

theorem pair_sublist_or {first second : AliasRule} (different : first ≠ second)
    (member : first ∈ rules) (otherMember : second ∈ rules) :
    [first, second].Sublist rules ∨ [second, first].Sublist rules := by
  rcases List.append_of_mem member with ⟨before, after, rfl⟩
  rcases List.mem_append.mp otherMember with inside | inside
  · right
    exact (List.singleton_sublist.mpr inside).append
      (List.singleton_sublist.mpr (List.mem_cons_self ..))
  · left
    rcases List.mem_cons.mp inside with same | inside
    · exact absurd same.symm different
    · exact ((List.singleton_sublist.mpr inside).cons_cons first).trans
        (List.sublist_append_right ..)

theorem eq_of_pair_sublist {first second : AliasRule} (once : rules.Nodup)
    (forth : [first, second].Sublist rules) (back : [second, first].Sublist rules) :
    first = second := by
  -- Without repetition a list has the two rules only once, so the pair that is left of it is both.
  have kept : ∀ pair : List AliasRule, pair.Sublist rules → pair.length = 2 →
      (∀ rule ∈ pair, rule ∈ [first, second]) →
      pair = rules.filter (· ∈ [first, second]) := by
    intro pair inside length within
    have only : rules.filter (· ∈ [first, second]) ⊆ [first, second] := fun rule member =>
      of_decide_eq_true (List.mem_filter.mp member).2
    have few := (List.subperm_of_subset (once.filter _) only).length_le
    have filtered : pair.filter (· ∈ [first, second]) = pair :=
      List.filter_eq_self.mpr fun rule member => decide_eq_true (within rule member)
    have sub := inside.filter (· ∈ [first, second])
    rw [filtered] at sub
    exact sub.eq_of_length_le (few.trans_eq length.symm)
  have same := (kept _ forth rfl (by simp)).trans (kept _ back rfl (by simp)).symm
  exact (List.cons.inj same).1

/-- The rules are the same in whichever order their mappings stand exactly if no base belongs to
rules of two projects. -/
theorem definite_iff (distinct : Json.DistinctNames mappings) :
    Definite (ofMappings root projects mappings) ↔ ∀ others, mappings.Perm others →
      ofMappings root projects mappings = ofMappings root projects others := by
  constructor
  · exact fun definite others same => (ofMappings_reordered distinct same).definite definite
  · intro stable rule member other otherMember bases
    have once : (ofMappings root projects mappings).Nodup := nodup_ofMappings distinct
    -- Turned around, the mappings make the two rules in the other order.
    have turned : ∀ {first second : AliasRule}, first ≠ second → first.base = second.base →
        [first, second].Sublist (mappings.filterMap (ofMapping? root projects)) → False := by
      intro first second different bases inside
      have backwards : [second, first].Sublist
          (mappings.reverse.filterMap (ofMapping? root projects)) := by
        rw [List.filterMap_reverse]
        exact inside.reverse
      have back := pair_sublist_ofMappings different.symm bases.symm backwards
      rw [← stable _ mappings.reverse_perm.symm] at back
      exact different
        (eq_of_pair_sublist once (pair_sublist_ofMappings different bases inside) back)
    by_contra apart
    have different : rule ≠ other := fun same => apart (congrArg project same)
    have made := List.mem_filterMap.mpr (mem_ofMappings.mp member)
    have otherMade := List.mem_filterMap.mpr (mem_ofMappings.mp otherMember)
    rcases pair_sublist_or different made otherMade with inside | inside
    · exact turned different bases inside
    · exact turned different.symm bases.symm inside

end WorkspaceGraph.AliasRule
