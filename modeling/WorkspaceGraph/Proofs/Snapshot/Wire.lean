import WorkspaceGraph.Proofs.Schema.Fields
import WorkspaceGraph.Snapshot.Wire
/-!
The wire form of a snapshot. A snapshot is accepted in its wire form as it is, in whatever order the
fields of the records stand, so different snapshots have different wire forms.
-/

namespace WorkspaceGraph

theorem ProjectType.ofText?_text (type : ProjectType) :
    ProjectType.ofText? type.text = some type := by
  cases type <;> rfl

namespace Snapshot

open Schema

/-! ## Acceptance -/

theorem ProjectNode.check_toJson (project : ProjectNode) :
    ProjectNode.check project.toJson = .valid project := by
  simp [ProjectNode.check, ProjectNode.toJson, Schema.record, required, FieldName.find,
    FieldName.single, Json.lookup, rootPathField, sourceRootPathField, configFilePathField, choice,
    ProjectType.ofText?_text]

theorem LibraryNode.check_toJson (library : LibraryNode) :
    LibraryNode.check library.toJson = .valid library := by
  simp [LibraryNode.check, LibraryNode.toJson, Schema.record, required, FieldName.find,
    FieldName.single, Json.lookup, rootPathField, sourceRootPathField, configFilePathField]

theorem ComponentNode.check_toJson (component : ComponentNode) :
    ComponentNode.check component.toJson = .valid component := by
  simp [ComponentNode.check, ComponentNode.toJson, Schema.record, required, FieldName.find,
    FieldName.single, Json.lookup]

theorem Edge.check_toJson (edge : Edge) : Edge.check edge.toJson = .valid edge := by
  simp [Edge.check, Edge.toJson, Schema.record, required, FieldName.find, Json.lookup]

theorem check_toJson (snapshot : Snapshot) : check snapshot.toJson = .valid snapshot := by
  have version : Schema.version (.nat schemaVersion) = .valid () := rfl
  simp [check, toJson, Schema.record, required, FieldName.find, FieldName.single, Json.lookup,
    version, list_map ProjectNode.check_toJson, list_map LibraryNode.check_toJson,
    list_map ComponentNode.check_toJson, list_map Edge.check_toJson]

/-! ## The order of fields -/

theorem ProjectNode.check_ignoresOrder : IgnoresOrder ProjectNode.check := by
  apply IgnoresOrder.record
  intro fields names each
  simp only [required_stableFields names each, IgnoresOrder.text, IgnoresOrder.text.nullable,
    IgnoresOrder.text.list, IgnoresOrder.choice]

theorem LibraryNode.check_ignoresOrder : IgnoresOrder LibraryNode.check := by
  apply IgnoresOrder.record
  intro fields names each
  simp only [required_stableFields names each, IgnoresOrder.text, IgnoresOrder.text.nullable]

theorem ComponentNode.check_ignoresOrder : IgnoresOrder ComponentNode.check := by
  apply IgnoresOrder.record
  intro fields names each
  simp only [required_stableFields names each, IgnoresOrder.text, IgnoresOrder.text.nullable,
    IgnoresOrder.bool.nullable, IgnoresOrder.text.list]

theorem Edge.check_ignoresOrder : IgnoresOrder Edge.check := by
  apply IgnoresOrder.record
  intro fields names each
  simp only [required_stableFields names each, IgnoresOrder.text, IgnoresOrder.text.list]

theorem check_ignoresOrder : IgnoresOrder check := by
  apply IgnoresOrder.record
  intro fields names each
  simp only [required_stableFields names each, IgnoresOrder.version, IgnoresOrder.text,
    ProjectNode.check_ignoresOrder.list, LibraryNode.check_ignoresOrder.list,
    ComponentNode.check_ignoresOrder.list, Edge.check_ignoresOrder.list]

/-! ## Plain values -/

@[simp] theorem ProjectNode.plain_toJson (project : ProjectNode) : Json.Plain project.toJson := by
  simp [toJson, Json.DistinctNames]

@[simp] theorem LibraryNode.plain_toJson (library : LibraryNode) : Json.Plain library.toJson := by
  simp [toJson, Json.DistinctNames]

@[simp] theorem ComponentNode.plain_toJson (component : ComponentNode) :
    Json.Plain component.toJson := by
  simp [toJson, Json.DistinctNames]

@[simp] theorem Edge.plain_toJson (edge : Edge) : Json.Plain edge.toJson := by
  simp [toJson, Json.DistinctNames]

@[simp] theorem plain_toJson (snapshot : Snapshot) : Json.Plain snapshot.toJson := by
  simp [toJson, Json.DistinctNames, Json.nat]

/-- Snapshots whose wire forms are equal up to the order of fields are equal. -/
theorem sorted_toJson_inj {left right : Snapshot} :
    left.toJson.sorted = right.toJson.sorted ↔ left = right := by
  constructor
  · intro same
    have checked := congrArg check same
    rw [check_ignoresOrder _ left.plain_toJson, check_ignoresOrder _ right.plain_toJson,
      check_toJson, check_toJson] at checked
    exact Checked.valid.inj checked
  · intro same
    rw [same]

end Snapshot

end WorkspaceGraph
