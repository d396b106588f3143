import WorkspaceGraph.Proofs.Json.Stable
import WorkspaceGraph.Schema.Checked
/-!
Checks of records. A check that looks its fields up by name does not depend on the order in which
they stand, and neither does a check made of such checks.
-/

namespace WorkspaceGraph.Schema

/-! ## Checked values -/

namespace Checked

variable {α β : Type}

@[simp] theorem map_valid (transform : α → β) (value : α) :
    transform <$> valid value = valid (transform value) := rfl

@[simp] theorem apply_map_valid (transform : α → β) (value : α) :
    (valid value).map transform = valid (transform value) := rfl

@[simp] theorem seq_valid (transform : α → β) (value : α) :
    (valid transform <*> valid value : Checked β) = valid (transform value) := rfl

@[simp] theorem within_valid (part : String) (value : α) :
    (valid value).within part = valid value := rfl

end Checked

variable {α : Type} {check : Check α}

@[simp] theorem text_text (value : String) : text (.text value) = .valid value := rfl

@[simp] theorem nullable_textOrNull (value : Option String) :
    nullable text (.textOrNull value) = .valid value := by
  cases value <;> rfl

@[simp] theorem nullable_boolOrNull (value : Option Bool) :
    nullable bool (.boolOrNull value) = .valid value := by
  cases value <;> rfl

theorem list_map {write : α → Json} (accepts : ∀ value, check (write value) = .valid value)
    (values : List α) : list check (.list (values.map write)) = .valid values := by
  have items : ∀ index, items check index (values.map write) = .valid values := by
    induction values with
    | nil => exact fun _ => rfl
    | cons value values induction =>
        intro index
        rw [List.map_cons, Schema.items, accepts, induction]
        rfl
  exact items 0

@[simp] theorem list_texts (values : List String) : list text (.texts values) = .valid values :=
  list_map text_text values

/-! ## The order of fields -/

def IgnoresOrder (check : Check α) : Prop :=
  ∀ value, Json.Plain value → check value.sorted = check value

theorem IgnoresOrder.text : IgnoresOrder text := by
  intro value plain
  cases plain <;> rfl

theorem IgnoresOrder.bool : IgnoresOrder bool := by
  intro value plain
  cases plain <;> rfl

theorem IgnoresOrder.version : IgnoresOrder version := by
  intro value plain
  cases plain <;> rfl

theorem IgnoresOrder.choice (ofText? : String → Option α) (allowed : List String) :
    IgnoresOrder (choice ofText? allowed) := by
  intro value plain
  cases plain <;> rfl

theorem IgnoresOrder.nullable (ignores : IgnoresOrder check) : IgnoresOrder (nullable check) := by
  intro value plain
  have same := ignores value plain
  cases plain with
  | null => rfl
  | bool value => rfl
  | int value => rfl
  | text value => rfl
  | list items each =>
      rw [Json.sorted_list] at same ⊢
      simp only [Schema.nullable, same]
  | record fields names each =>
      rw [Json.sorted_record] at same ⊢
      simp only [Schema.nullable, same]

theorem IgnoresOrder.list (ignores : IgnoresOrder check) : IgnoresOrder (list check) := by
  intro value plain
  cases plain with
  | list values each =>
      have items : ∀ index, items check index (values.map Json.sorted) =
          items check index values := by
        induction values with
        | nil => exact fun _ => rfl
        | cons value values induction =>
            intro index
            rcases List.forall_mem_cons.mp each with ⟨first, each⟩
            rw [List.map_cons, Schema.items, Schema.items, ignores value first, induction each]
      rw [Json.sorted_list]
      exact items 0
  | record fields names each =>
      rw [Json.sorted_record]
      rfl
  | _ => rfl

variable {fields : List (String × Json)}

theorem find_stableFields (names : Json.DistinctNames fields) (field : FieldName) :
    field.find (Json.stableFields fields) =
      (field.find fields).map fun (name, value) => (name, value.sorted) := by
  rw [FieldName.find, FieldName.find, Json.lookup_stableFields names,
    Json.lookup_stableFields names]
  cases Json.lookup field.name fields <;> simp [Function.comp_def]

theorem mem_of_find {field : FieldName} {name : String} {value : Json}
    (found : field.find fields = some (name, value)) : (name, value) ∈ fields := by
  unfold FieldName.find at found
  split at found
  · cases found
    exact Json.mem_of_lookup ‹_›
  · rcases Option.map_eq_some_iff.mp found with ⟨other, isOther, same⟩
    cases same
    exact Json.mem_of_lookup isOther

theorem required_stableFields (names : Json.DistinctNames fields)
    (each : ∀ field ∈ fields, Json.Plain field.2) (field : FieldName)
    (ignores : IgnoresOrder check) :
    required field check (Json.stableFields fields) = required field check fields := by
  rw [required, required, find_stableFields names]
  cases found : field.find fields with
  | none => rfl
  | some pair =>
      have same := ignores pair.2 (each pair (mem_of_find found))
      simp only [Option.map_some, same]

theorem IgnoresOrder.record {model : String} {checkFields : List (String × Json) → Checked α}
    (ignores : ∀ fields, Json.DistinctNames fields → (∀ field ∈ fields, Json.Plain field.2) →
      checkFields (Json.stableFields fields) = checkFields fields) :
    IgnoresOrder (record model checkFields) := by
  intro value plain
  cases plain with
  | record fields names each =>
      rw [Json.sorted_record]
      exact ignores fields names each
  | list values each =>
      rw [Json.sorted_list]
      rfl
  | _ => rfl

end WorkspaceGraph.Schema
