import Mathlib.Data.List.Sort
import WorkspaceGraph.Order
/-!
Sorting rearranges a list in the order of its keys and keeps the order of entries that tie, and the
distinct texts of a list are its members in strictly increasing order.
-/

namespace WorkspaceGraph.Order

/-! ## Sorting -/

theorem lt_of_not_lt_of_ne {left right : List String} (notAbove : ¬right < left)
    (different : left ≠ right) : left < right := by
  rcases List.le_iff_lt_or_eq.mp (List.not_lt.mp notAbove) with below | same
  · exact below
  · exact absurd same different

variable {α : Type u} (key : α → List String)

def AtMost (left right : α) : Prop := ¬key right < key left

instance : DecidableRel (AtMost key) := fun left right =>
  inferInstanceAs (Decidable ¬key right < key left)

instance : Std.Total (AtMost key) where
  total left right := by
    by_cases above : key right < key left
    · exact .inr (List.lt_asymm above)
    · exact .inl above

instance : IsTrans α (AtMost key) where
  trans _ _ _ first second below :=
    first (List.lt_of_le_of_lt (List.not_lt.mp second) below)

theorem insertOn_eq_orderedInsert (entry : α) (list : List α) :
    insertOn key entry list = list.orderedInsert (AtMost key) entry := by
  induction list with
  | nil => rfl
  | cons next rest induction =>
      by_cases after : key next < key entry <;> simp [insertOn, AtMost, after, induction]

theorem sortOn_eq_insertionSort (list : List α) :
    sortOn key list = list.insertionSort (AtMost key) := by
  induction list with
  | nil => rfl
  | cons entry rest induction =>
      rw [sortOn, insertOn_eq_orderedInsert, induction, List.insertionSort_cons]

theorem sortOn_perm (list : List α) : (sortOn key list).Perm list := by
  rw [sortOn_eq_insertionSort]
  exact List.perm_insertionSort ..

theorem sortOn_sorted (list : List α) : (sortOn key list).Pairwise (AtMost key) := by
  rw [sortOn_eq_insertionSort]
  exact List.pairwise_insertionSort ..

theorem sortOn_of_sorted {list : List α} (sorted : list.Pairwise (AtMost key)) :
    sortOn key list = list := by
  rw [sortOn_eq_insertionSort]
  exact sorted.insertionSort_eq

theorem insertOn_map {β : Type v} (key : β → List String) (transform : α → β) (entry : α)
    (list : List α) :
    insertOn key (transform entry) (list.map transform) =
      (insertOn (fun entry => key (transform entry)) entry list).map transform := by
  induction list with
  | nil => rfl
  | cons next rest induction =>
      by_cases after : key (transform next) < key (transform entry) <;>
        simp [insertOn, after, induction]

theorem sortOn_map {β : Type v} (key : β → List String) (transform : α → β) (list : List α) :
    sortOn key (list.map transform) =
      (sortOn (fun entry => key (transform entry)) list).map transform := by
  induction list with
  | nil => rfl
  | cons entry rest induction => rw [List.map_cons, sortOn, induction, insertOn_map, sortOn]

theorem sortOn_increasing {list : List α}
    (distinct : list.Pairwise fun left right => key left ≠ key right) :
    (sortOn key list).Pairwise fun left right => key left < key right := by
  have apart : (sortOn key list).Pairwise fun left right => key left ≠ key right :=
    (sortOn_perm key list).symm.pairwise distinct Ne.symm
  exact (sortOn_sorted key list).imp₂ (fun _ _ => lt_of_not_lt_of_ne) apart

theorem sortOn_names_increasing {name : α → String} {list : List α}
    (distinct : list.Pairwise fun left right => name left ≠ name right) :
    (sortOn (fun entry => [name entry]) list).Pairwise
      fun left right => name left < name right := by
  have keys : list.Pairwise fun left right => [name left] ≠ [name right] :=
    distinct.imp fun different same => different (List.cons.inj same).1
  refine (sortOn_increasing (fun entry => [name entry]) keys).imp fun below => ?_
  simpa [List.cons_lt_cons_iff] using below

instance key_lt_irrefl : Std.Irrefl fun left right : α => key left < key right where
  irrefl _ := List.lt_irrefl _

instance key_lt_antisymm : Std.Antisymm fun left right : α => key left < key right where
  antisymm _ _ below above := absurd above (List.lt_asymm below)

theorem eq_of_increasing {left right : List α}
    (leftIncreasing : left.Pairwise fun one other => key one < key other)
    (rightIncreasing : right.Pairwise fun one other => key one < key other)
    (same : ∀ entry, entry ∈ left ↔ entry ∈ right) : left = right :=
  leftIncreasing.eq_of_mem_iff rightIncreasing same

theorem sortOn_eq_of_perm {left right : List α} (same : left.Perm right)
    (distinct : left.Pairwise fun one other => key one ≠ key other) :
    sortOn key left = sortOn key right := by
  have distinctToo : right.Pairwise fun one other => key one ≠ key other :=
    same.pairwise distinct Ne.symm
  apply eq_of_increasing key (sortOn_increasing key distinct) (sortOn_increasing key distinctToo)
  intro entry
  rw [(sortOn_perm key left).mem_iff, (sortOn_perm key right).mem_iff, same.mem_iff]

/-! ## Ties

Sorting keeps entries with equal keys in the order in which they came, and that order is all that it
keeps: it decides what the sorted list is.
-/

theorem filter_insertOn (entry : α) (list : List α) (tied : List String) :
    (insertOn key entry list).filter (key · = tied) =
      (entry :: list).filter (key · = tied) := by
  induction list with
  | nil => rfl
  | cons next rest induction =>
      rw [insertOn]
      split
      · rename_i before
        by_cases nextTied : key next = tied
        · -- The entry does not tie with one that it is put behind.
          have entryFree : key entry ≠ tied := by
            intro same
            rw [nextTied, same] at before
            exact List.lt_irrefl _ before
          simp [nextTied, entryFree, induction]
        · simpa [nextTied, List.filter_cons] using induction
      · rfl

theorem filter_sortOn (list : List α) (tied : List String) :
    (sortOn key list).filter (key · = tied) = list.filter (key · = tied) := by
  induction list with
  | nil => rfl
  | cons entry rest induction =>
      rw [sortOn, filter_insertOn, List.filter_cons, List.filter_cons, induction]

theorem not_before_head {head : α} {rest other : List α}
    (sorted : (head :: rest).Pairwise (AtMost key))
    (ties : ∀ tied, (head :: rest).filter (key · = tied) = other.filter (key · = tied))
    {entry : α} (member : entry ∈ other) : ¬key entry < key head := by
  have kept : entry ∈ other.filter (key · = key entry) :=
    List.mem_filter.mpr ⟨member, decide_eq_true rfl⟩
  rw [← ties] at kept
  rcases List.mem_cons.mp (List.mem_filter.mp kept).1 with same | inside
  · rw [same]
    exact List.lt_irrefl _
  · exact (List.pairwise_cons.mp sorted).1 entry inside

/-- Sorted lists are equal if the entries of every key stand in the same order in both. -/
theorem eq_of_ties {left right : List α} (leftSorted : left.Pairwise (AtMost key))
    (rightSorted : right.Pairwise (AtMost key))
    (ties : ∀ tied, left.filter (key · = tied) = right.filter (key · = tied)) : left = right := by
  induction left generalizing right with
  | nil =>
      cases right with
      | nil => rfl
      | cons other rest =>
          have absent := ties (key other)
          simp at absent
  | cons entry rest induction =>
      cases right with
      | nil =>
          have absent := ties (key entry)
          simp at absent
      | cons other others =>
          have notAbove : ¬key other < key entry :=
            not_before_head key leftSorted ties (List.mem_cons_self ..)
          have notBelow : ¬key entry < key other :=
            not_before_head key rightSorted (fun tied => (ties tied).symm) (List.mem_cons_self ..)
          have tied : key other = key entry :=
            List.le_antisymm (List.not_lt.mp notBelow) (List.not_lt.mp notAbove)
          have heads := ties (key entry)
          simp only [List.filter_cons, tied, decide_true, if_true, List.cons.injEq] at heads
          have same : entry = other := heads.1
          subst same
          have tails := induction (List.pairwise_cons.mp leftSorted).2
            (List.pairwise_cons.mp rightSorted).2 fun tied => by
              have whole := ties tied
              rw [List.filter_cons, List.filter_cons] at whole
              split at whole
              · exact List.tail_eq_of_cons_eq whole
              · exact whole
          rw [tails]

theorem sortOn_eq_iff {left right : List α} : sortOn key left = sortOn key right ↔
    ∀ tied, left.filter (key · = tied) = right.filter (key · = tied) := by
  constructor
  · intro same tied
    rw [← filter_sortOn, same, filter_sortOn]
  · intro ties
    apply eq_of_ties key (sortOn_sorted key left) (sortOn_sorted key right)
    intro tied
    rw [filter_sortOn, filter_sortOn, ties]

theorem sortOn_name_eq_iff {name : α → String} {left right : List α} :
    sortOn (fun entry => [name entry]) left = sortOn (fun entry => [name entry]) right ↔
      ∀ text, left.filter (name · = text) = right.filter (name · = text) := by
  rw [sortOn_eq_iff]
  constructor
  · intro ties text
    have named := ties [text]
    simpa using named
  · intro ties tied
    by_cases isName : ∃ text, tied = [text]
    · rcases isName with ⟨text, rfl⟩
      simpa using ties text
    · have none : ∀ list : List α, list.filter ([name ·] = tied) = [] := by
        intro list
        rw [List.filter_eq_nil_iff]
        intro entry _ same
        exact isName ⟨name entry, (of_decide_eq_true same).symm⟩
      rw [none, none]

/-! ## Distinct texts -/

theorem mem_insertText {text other : String} {texts : List String} :
    other ∈ insertText text texts ↔ other = text ∨ other ∈ texts := by
  induction texts with
  | nil => simp [insertText]
  | cons next rest induction =>
      rw [insertText]
      split
      · simp
      split
      · rename_i same
        simp [same]
      · simp [induction, or_left_comm]

theorem insertText_increasing {text : String} {texts : List String}
    (increasing : texts.Pairwise (· < ·)) : (insertText text texts).Pairwise (· < ·) := by
  induction texts with
  | nil => exact List.pairwise_singleton ..
  | cons next rest induction =>
      have parts := List.pairwise_cons.mp increasing
      rw [insertText]
      split
      · rename_i first
        refine List.pairwise_cons.mpr ⟨List.forall_mem_cons.mpr ⟨first, ?_⟩, increasing⟩
        exact fun other member => String.lt_trans first (parts.1 other member)
      split
      · exact increasing
      · rename_i notFirst different
        have after : next < text :=
          Std.lt_of_le_of_ne (String.not_lt.mp notFirst) (Ne.symm different)
        refine List.pairwise_cons.mpr ⟨fun other member => ?_, induction parts.2⟩
        rcases mem_insertText.mp member with rfl | inside
        · exact after
        · exact parts.1 other inside

theorem mem_distinct {text : String} {texts : List String} :
    text ∈ distinct texts ↔ text ∈ texts := by
  induction texts with
  | nil => exact .rfl
  | cons next rest induction =>
      rw [distinct] at induction ⊢
      rw [List.foldr_cons, mem_insertText, List.mem_cons, induction]

theorem distinct_increasing (texts : List String) : (distinct texts).Pairwise (· < ·) := by
  induction texts with
  | nil => exact .nil
  | cons next rest induction => exact insertText_increasing induction

theorem eq_distinct {texts members : List String} (increasing : texts.Pairwise (· < ·))
    (same : ∀ text, text ∈ texts ↔ text ∈ members) : texts = distinct members := by
  apply increasing.eq_of_mem_iff (distinct_increasing members)
  intro text
  rw [same, mem_distinct]

theorem distinct_of_increasing {texts : List String} (increasing : texts.Pairwise (· < ·)) :
    distinct texts = texts :=
  (eq_distinct increasing fun _ => .rfl).symm

theorem distinct_eq_iff {left right : List String} :
    distinct left = distinct right ↔ ∀ text, text ∈ left ↔ text ∈ right := by
  constructor
  · intro equal text
    rw [← mem_distinct, equal, mem_distinct]
  · intro same
    apply eq_distinct (distinct_increasing left)
    intro text
    rw [mem_distinct, same]

end WorkspaceGraph.Order
