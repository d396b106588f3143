import Mathlib.Data.List.Forall2
import Mathlib.Data.List.Perm.Basic
import WorkspaceGraph.Proofs.Json.RoundTrip
import WorkspaceGraph.Proofs.Order
/-!
The stable text. Two values without floating-point numbers have the same stable text exactly if they
are equal up to the order in which the fields of their records stand, and from that text the value
is read back up to that order.
-/

namespace WorkspaceGraph.Json

/-- The values are equal but for the order of fields, in the values themselves and at every level
below. -/
inductive Same : Json → Json → Prop
  | null : Same null null
  | bool (value : Bool) : Same (bool value) (bool value)
  | int (value : Int) : Same (int value) (int value)
  | real (value : Binary64) : Same (real value) (real value)
  | text (value : String) : Same (text value) (text value)
  | list {left right : List Json} (items : List.Forall₂ Same left right) :
      Same (list left) (list right)
  /-- Brought into the order of the other record, the fields have its names and the same values. -/
  | record {left ordered right : List (String × Json)} (reordered : left.Perm ordered)
      (names : ordered.map (·.1) = right.map (·.1))
      (values : List.Forall₂ Same (ordered.map (·.2)) (right.map (·.2))) :
      Same (record left) (record right)

/-! ## Sorting fields -/

def sortedField (field : String × Json) : String × Json := (field.1, field.2.sorted)

theorem sortedItems_eq_map (items : List Json) : sortedItems items = items.map sorted := by
  induction items with
  | nil => rfl
  | cons item rest induction => rw [sortedItems, induction, List.map_cons]

theorem sortedFields_eq_map (fields : List (String × Json)) :
    sortedFields fields = fields.map sortedField := by
  induction fields with
  | nil => rfl
  | cons field rest induction =>
      rw [sortedFields, induction, List.map_cons]
      rfl

theorem sortFields_eq_sortOn (fields : List (String × Json)) :
    sortFields fields = Order.sortOn (fun field => [field.1]) fields := by
  have inserted : ∀ (field : String × Json) (fields : List (String × Json)),
      insertField field fields = Order.insertOn (fun field => [field.1]) field fields := by
    intro field fields
    induction fields with
    | nil => rfl
    | cons next rest induction =>
        by_cases before : field.1 ≤ next.1
        · have notAfter : ¬next.1 < field.1 := String.not_lt.mpr before
          simp [insertField, Order.insertOn, before, List.cons_lt_cons_iff, notAfter]
        · have after : next.1 < field.1 := String.not_le.mp before
          simp [insertField, Order.insertOn, before, List.cons_lt_cons_iff, after, induction]
  induction fields with
  | nil => rfl
  | cons field rest induction => rw [sortFields, induction, inserted, Order.sortOn]

variable {fields left right : List (String × Json)}

theorem sortFields_perm (fields : List (String × Json)) : (sortFields fields).Perm fields := by
  rw [sortFields_eq_sortOn]
  exact Order.sortOn_perm _ _

theorem sortFields_eq_of_perm (same : left.Perm right) (names : DistinctNames left) :
    sortFields left = sortFields right := by
  rw [sortFields_eq_sortOn, sortFields_eq_sortOn]
  apply Order.sortOn_eq_of_perm _ same
  exact names.imp fun different same => different (List.cons.inj same).1

theorem DistinctNames.perm (names : DistinctNames left) (same : left.Perm right) :
    DistinctNames right :=
  same.pairwise names Ne.symm

theorem DistinctNames.map (names : DistinctNames fields) :
    DistinctNames (fields.map sortedField) :=
  List.pairwise_map.mpr names

def stableFields (fields : List (String × Json)) : List (String × Json) :=
  (sortFields fields).map sortedField

theorem sortFields_map_sortedField (fields : List (String × Json)) :
    sortFields (fields.map sortedField) = stableFields fields := by
  rw [stableFields, sortFields_eq_sortOn, sortFields_eq_sortOn, Order.sortOn_map]
  rfl

theorem stableFields_perm (fields : List (String × Json)) :
    (stableFields fields).Perm (fields.map sortedField) :=
  (sortFields_perm fields).map sortedField

theorem sorted_list (items : List Json) : (list items).sorted = list (items.map sorted) := by
  rw [sorted, sortedItems_eq_map]

theorem sorted_record (fields : List (String × Json)) :
    (record fields).sorted = record (stableFields fields) := by
  rw [sorted, sortedFields_eq_map, sortFields_map_sortedField]

theorem lookup_stableFields (names : DistinctNames fields) (name : String) :
    lookup name (stableFields fields) = (lookup name fields).map sorted := by
  have mapped : ∀ fields, lookup name (fields.map sortedField) =
      (lookup name fields).map sorted := by
    intro fields
    induction fields with
    | nil => rfl
    | cons field rest induction =>
        by_cases same : field.1 = name <;> simp [lookup, sortedField, same, induction]
  have arranged : lookup name (sortFields fields) = lookup name fields := by
    apply Option.ext
    intro value
    rw [lookup_eq_some_iff (names.perm (sortFields_perm fields).symm), lookup_eq_some_iff names,
      (sortFields_perm fields).mem_iff]
  rw [stableFields, mapped, arranged]

theorem sorted_sorted {value : Json} (plain : Plain value) :
    value.sorted.sorted = value.sorted := by
  induction plain with
  | null => rfl
  | bool value => rfl
  | int value => rfl
  | text value => rfl
  | list items each induction =>
      rw [sorted_list, sorted_list, List.map_map]
      exact congrArg list (List.map_congr_left induction)
  | record fields names each induction =>
      have fixed : (stableFields fields).map sortedField = stableFields fields := by
        rw [stableFields, List.map_map]
        apply List.map_congr_left
        intro field member
        have inside := (sortFields_perm fields).mem_iff.mp member
        exact congrArg (Prod.mk field.1) (induction field inside)
      have twice : sortFields (stableFields fields) = stableFields fields := by
        rw [← sortFields_map_sortedField fields]
        apply sortFields_eq_of_perm (sortFields_perm _)
        exact names.map.perm (sortFields_perm _).symm
      rw [sorted_record, sorted_record, ← sortFields_map_sortedField (stableFields fields), fixed,
        twice]

theorem Plain.sorted {value : Json} (plain : Plain value) : Plain value.sorted := by
  induction plain with
  | null => exact .null
  | bool value => exact .bool value
  | int value => exact .int value
  | text value => exact .text value
  | list items each induction =>
      rw [sorted_list]
      exact .list _ (List.forall_mem_map.mpr induction)
  | record fields names each induction =>
      rw [sorted_record]
      apply Plain.record _ (names.perm (sortFields_perm fields).symm).map
      intro field member
      rcases List.mem_map.mp member with ⟨raw, inside, rfl⟩
      exact induction raw ((sortFields_perm fields).mem_iff.mp inside)

theorem field?_sorted {value : Json} (plain : Plain value) (name : String) :
    value.sorted.field? name = (value.field? name).map sorted := by
  cases plain with
  | record fields names each =>
      rw [sorted_record]
      exact lookup_stableFields names name
  | list items each =>
      rw [sorted_list]
      rfl
  | _ => rfl

/-! ## Equality but for the order of fields -/

theorem map_eq_map_iff_forall₂ {α β γ : Type} {one : α → γ} {other : β → γ} {related : α → β → Prop}
    {left : List α} {right : List β}
    (each : ∀ entry ∈ left, ∀ partner ∈ right, one entry = other partner ↔ related entry partner) :
    left.map one = right.map other ↔ List.Forall₂ related left right := by
  induction left generalizing right with
  | nil => cases right <;> simp
  | cons entry left induction =>
      cases right with
      | nil => simp
      | cons partner right =>
          rcases List.forall_mem_cons.mp each with ⟨first, each⟩
          have rest := induction fun entry member partner inside =>
            each entry member partner (List.mem_cons_of_mem _ inside)
          rw [List.map_cons, List.map_cons, List.cons.injEq, List.forall₂_cons, rest,
            first partner (List.mem_cons_self ..)]

theorem map_sortedField_eq_iff : left.map sortedField = right.map sortedField ↔
    left.map (·.1) = right.map (·.1) ∧
      (left.map (·.2)).map sorted = (right.map (·.2)).map sorted := by
  induction left generalizing right with
  | nil => cases right <;> simp
  | cons field left induction =>
      cases right with
      | nil => simp
      | cons partner right => simp [sortedField, induction, and_assoc, and_left_comm]

theorem exists_perm_of_map_perm {α β : Type} {transform : α → β} {list : List α} {image : List β}
    (same : (list.map transform).Perm image) :
    ∃ ordered, list.Perm ordered ∧ ordered.map transform = image := by
  have pairs : List.Forall₂ (fun result entry => transform entry = result)
      (list.map transform) list := by
    rw [List.forall₂_map_left_iff]
    exact List.forall₂_same.mpr fun _ _ => rfl
  rcases List.perm_comp_forall₂ same.symm pairs with ⟨ordered, results, rearranged⟩
  refine ⟨ordered, rearranged.symm, ?_⟩
  rw [← List.forall₂_eq_eq_eq, List.forall₂_map_left_iff]
  exact results.flip

theorem sorted_record_eq_iff (names : DistinctNames left) :
    (record left).sorted = (record right).sorted ↔
      ∃ ordered, left.Perm ordered ∧ ordered.map sortedField = right.map sortedField := by
  rw [sorted_record, sorted_record, record.injEq]
  constructor
  · intro equal
    have images : (left.map sortedField).Perm (right.map sortedField) := by
      apply (stableFields_perm left).symm.trans
      rw [equal]
      exact stableFields_perm right
    exact exists_perm_of_map_perm images
  · rintro ⟨ordered, rearranged, equal⟩
    rw [← sortFields_map_sortedField, ← sortFields_map_sortedField, ← equal]
    exact sortFields_eq_of_perm (rearranged.map sortedField) names.map

/-- Sorting keeps apart what differs in more than the order of fields, and nothing else. -/
theorem sorted_eq_iff {left right : Json} (leftPlain : Plain left) (rightPlain : Plain right) :
    left.sorted = right.sorted ↔ Same left right := by
  induction leftPlain generalizing right with
  | null =>
      cases rightPlain with
      | null => exact iff_of_true rfl .null
      | _ => exact iff_of_false (by simp [sorted]) nofun
  | bool value =>
      cases rightPlain with
      | bool other =>
          constructor
          · rintro ⟨⟩
            exact .bool value
          · rintro ⟨⟩
            rfl
      | _ => exact iff_of_false (by simp [sorted]) nofun
  | int value =>
      cases rightPlain with
      | int other =>
          constructor
          · rintro ⟨⟩
            exact .int value
          · rintro ⟨⟩
            rfl
      | _ => exact iff_of_false (by simp [sorted]) nofun
  | text value =>
      cases rightPlain with
      | text other =>
          constructor
          · rintro ⟨⟩
            exact .text value
          · rintro ⟨⟩
            rfl
      | _ => exact iff_of_false (by simp [sorted]) nofun
  | list items each induction =>
      cases rightPlain with
      | list others eachOther =>
          have items := map_eq_map_iff_forall₂ fun item member other inside =>
            induction item member (eachOther other inside)
          rw [sorted_list, sorted_list, list.injEq, items]
          constructor
          · exact .list
          · intro same
            cases same with
            | list same => exact same
      | _ => exact iff_of_false (by simp [sorted]) nofun
  | record fields names each induction =>
      cases rightPlain with
      | record others namesToo eachOther =>
          -- The induction is on the left value, so the fields of the left record are rearranged.
          have values : ∀ {ordered}, fields.Perm ordered →
              ((ordered.map (·.2)).map sorted = (others.map (·.2)).map sorted ↔
                List.Forall₂ Same (ordered.map (·.2)) (others.map (·.2))) := by
            intro ordered rearranged
            apply map_eq_map_iff_forall₂
            intro value member other inside
            rcases List.mem_map.mp member with ⟨field, isField, rfl⟩
            rcases List.mem_map.mp inside with ⟨partner, isPartner, rfl⟩
            exact induction field (rearranged.mem_iff.mpr isField) (eachOther partner isPartner)
          rw [sorted_record_eq_iff names]
          constructor
          · rintro ⟨ordered, rearranged, equal⟩
            rcases map_sortedField_eq_iff.mp equal with ⟨sameNames, sameValues⟩
            exact .record rearranged sameNames ((values rearranged).mp sameValues)
          · intro same
            cases same with
            | record rearranged sameNames sameValues =>
                exact ⟨_, rearranged, map_sortedField_eq_iff.mpr
                  ⟨sameNames, (values rearranged).mpr sameValues⟩⟩
      | _ => exact iff_of_false (by simp [sorted]) nofun

/-! ## Stable texts -/

theorem parse_stableText {value : Json} (plain : Plain value) :
    parse value.stableText = .ok value.sorted :=
  parse_render readable_compact plain.sorted

theorem stableText_eq_iff {left right : Json} (leftPlain : Plain left)
    (rightPlain : Plain right) : left.stableText = right.stableText ↔ Same left right := by
  rw [← sorted_eq_iff leftPlain rightPlain]
  constructor
  · intro equal
    have read := parse_stableText leftPlain
    rw [equal, parse_stableText rightPlain] at read
    exact (Except.ok.inj read).symm
  · intro equal
    rw [stableText, equal, stableText]

end WorkspaceGraph.Json
