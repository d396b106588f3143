import Mathlib.Data.List.Nodup
import WorkspaceGraph.Proofs.Snapshot.Canonical
import WorkspaceGraph.Proofs.Snapshot.Wire
import WorkspaceGraph.Store.Basic
/-!
The rows of a store in the tables of the database, and what can be read from them. A version has a
row of its own and one for each of its nodes and edges, which refer to it. Every row of a node or an
edge tells all that there is to know about it.
-/

namespace WorkspaceGraph

namespace Database

inductive Cell
  | null
  | id (id : RowId)
  | text (text : String)
  | integer (value : Int)
  | boolean (value : Bool)
  | json (value : Json)
  | moment (value : Instant)

abbrev Row := List (String × Cell)

namespace Cell

def orNull {α : Type} (make : α → Cell) : Option α → Cell
  | some value => make value
  | none => null

def id? : Cell → Option RowId
  | .id value => some value
  | _ => none

def text? : Cell → Option String
  | .text value => some value
  | _ => none

def integer? : Cell → Option Int
  | .integer value => some value
  | _ => none

def boolean? : Cell → Option Bool
  | .boolean value => some value
  | _ => none

def nullable? {α : Type} (read? : Cell → Option α) : Cell → Option (Option α)
  | .null => some none
  | cell => (read? cell).map some

def texts? : Cell → Option (List String)
  | .json (.list items) => items.mapM Json.text?
  | _ => none

@[simp] theorem text?_text (value : String) : (text value).text? = some value := rfl

@[simp] theorem nullable?_text (value : Option String) :
    (orNull text value).nullable? text? = some value := by
  cases value <;> rfl

@[simp] theorem nullable?_boolean (value : Option Bool) :
    (orNull boolean value).nullable? boolean? = some value := by
  cases value <;> rfl

@[simp] theorem texts?_texts (values : List String) :
    (json (.texts values)).texts? = some values := by
  rw [Json.texts, texts?]
  induction values with
  | nil => rfl
  | cons value rest induction =>
      rw [List.map_cons, List.mapM_cons, induction]
      rfl

end Cell

def Row.cell (column : String) : Row → Cell
  | [] => .null
  | (name, cell) :: rest => if name = column then cell else Row.cell column rest

def Row.id? (row : Row) : Option RowId := (row.cell "id").id?

def Row.versionId? (row : Row) : Option RowId := (row.cell "version_id").id?

def Row.counts? (row : Row) : Option Counts := do
  let projects ← (row.cell "project_count").integer?
  let libraries ← (row.cell "library_count").integer?
  let components ← (row.cell "component_count").integer?
  let edges ← (row.cell "dependency_count").integer?
  some ⟨projects, libraries, components, edges⟩

end Database

open Database

/-! ## Runs, versions and heads -/

def Run.row (run : Run) : Row := [
  ("id", .id run.id),
  ("idempotency_key", .text run.key),
  ("payload_hash", .text run.payloadHash),
  ("workspace_id", .text run.workspaceId),
  ("scanner_name", .text run.scanner.name),
  ("scanner_version", .orNull .text run.scanner.version),
  ("source", .text run.trigger.text),
  ("status", .text run.status.text),
  ("attempt_count", .integer run.attempts),
  ("project_count", .integer run.counts.projects),
  ("library_count", .integer run.counts.libraries),
  ("component_count", .integer run.counts.components),
  ("dependency_count", .integer run.counts.edges),
  ("metadata", .json run.origin),
  ("graph_version_id", .orNull .id run.versionId),
  ("graph_version_number", .orNull .integer run.versionNumber),
  ("error_code", .orNull .text run.errorCode),
  ("error_message", .orNull .text run.errorMessage),
  ("started_at", .moment run.startedAt),
  ("completed_at", .orNull .moment run.completedAt)]

def Version.row (version : Version) : Row := [
  ("id", .id version.id),
  ("workspace_id", .text version.workspaceId),
  ("version", .integer version.number),
  ("scan_run_id", .id version.runId),
  ("payload_hash", .text version.payloadHash),
  ("schema_version", .integer version.schemaVersion),
  ("workspace_config_path", .text version.configPath),
  ("project_count", .integer version.counts.projects),
  ("library_count", .integer version.counts.libraries),
  ("component_count", .integer version.counts.components),
  ("dependency_count", .integer version.counts.edges)]

def Head.row (head : Head) : Row := [
  ("workspace_id", .text head.workspaceId),
  ("latest_version", .integer head.latest)]

@[simp] theorem Run.id?_row (run : Run) : run.row.id? = some run.id := rfl

@[simp] theorem Run.counts?_row (run : Run) : run.row.counts? = some run.counts := rfl

@[simp] theorem Version.id?_row (version : Version) : version.row.id? = some version.id := rfl

@[simp] theorem Version.counts?_row (version : Version) :
    version.row.counts? = some version.counts := rfl

namespace Snapshot

/-! ## Nodes and edges -/

def ProjectNode.row (version : RowId) (project : ProjectNode) : Row := [
  ("version_id", .id version),
  ("name", .text project.name),
  ("type", .text project.type.text),
  ("root_path", .text project.rootPath),
  ("source_root_path", .orNull .text project.sourceRootPath),
  ("config_file_path", .text project.configFilePath),
  ("dependencies", .json (.texts project.dependencies))]

def ComponentNode.row (version : RowId) (component : ComponentNode) : Row := [
  ("version_id", .id version),
  ("name", .text component.name),
  ("class_name", .orNull .text component.className),
  ("selector", .orNull .text component.selector),
  ("standalone", .orNull .boolean component.standalone),
  ("project", .text component.project),
  ("file_path", .text component.filePath),
  ("dependencies", .json (.texts component.dependencies))]

def Edge.row (version : RowId) (edge : Edge) : Row := [
  ("version_id", .id version),
  ("source_project", .text edge.source),
  ("target_project", .text edge.target),
  ("via_files", .json (.texts edge.files))]

/-! ## Reading -/

def ProjectNode.ofRow? (row : Row) : Option ProjectNode := do
  let name ← (row.cell "name").text?
  let type ← (row.cell "type").text?.bind ProjectType.ofText?
  let rootPath ← (row.cell "root_path").text?
  let sourceRootPath ← (row.cell "source_root_path").nullable? Cell.text?
  let configFilePath ← (row.cell "config_file_path").text?
  let dependencies ← (row.cell "dependencies").texts?
  some ⟨name, type, rootPath, sourceRootPath, configFilePath, dependencies⟩

def ComponentNode.ofRow? (row : Row) : Option ComponentNode := do
  let name ← (row.cell "name").text?
  let className ← (row.cell "class_name").nullable? Cell.text?
  let selector ← (row.cell "selector").nullable? Cell.text?
  let standalone ← (row.cell "standalone").nullable? Cell.boolean?
  let project ← (row.cell "project").text?
  let filePath ← (row.cell "file_path").text?
  let dependencies ← (row.cell "dependencies").texts?
  some ⟨name, className, selector, standalone, project, filePath, dependencies⟩

def Edge.ofRow? (row : Row) : Option Edge := do
  let source ← (row.cell "source_project").text?
  let target ← (row.cell "target_project").text?
  let files ← (row.cell "via_files").texts?
  some ⟨source, target, files⟩

theorem ProjectNode.ofRow?_row (version : RowId) (project : ProjectNode) :
    ofRow? (project.row version) = some project := by
  simp [ofRow?, row, Row.cell, ProjectType.ofText?_text]

theorem ComponentNode.ofRow?_row (version : RowId) (component : ComponentNode) :
    ofRow? (component.row version) = some component := by
  simp [ofRow?, row, Row.cell]

theorem Edge.ofRow?_row (version : RowId) (edge : Edge) :
    ofRow? (edge.row version) = some edge := by
  simp [ofRow?, row, Row.cell]

/-- The snapshot that the row of a version and the rows of its nodes and edges tell of, in canonical
order. The libraries are those among the projects. -/
def ofRows? (version : Row) (projects components edges : List Row) : Option Snapshot := do
  let configPath ← (version.cell "workspace_config_path").text?
  let projects ← projects.mapM ProjectNode.ofRow?
  let components ← components.mapM ComponentNode.ofRow?
  let edges ← edges.mapM Edge.ofRow?
  some (canonical ⟨configPath, projects, projects.filterMap LibraryNode.ofNode?, components, edges⟩)

end Snapshot

/-! ## Tables -/

namespace Store

def runRows (store : Store) : List Row := store.runs.map Run.row

def versionRows (store : Store) : List Row := store.versions.map Version.row

def headRows (store : Store) : List Row := store.heads.map Head.row

def projectRows (store : Store) : List Row :=
  store.versions.flatMap fun version =>
    version.projects.map (Snapshot.ProjectNode.row version.id)

def componentRows (store : Store) : List Row :=
  store.versions.flatMap fun version =>
    version.components.map (Snapshot.ComponentNode.row version.id)

def edgeRows (store : Store) : List Row :=
  store.versions.flatMap fun version => version.edges.map (Snapshot.Edge.row version.id)

end Store

namespace Database

def rowsWithId (id : RowId) (rows : List Row) : List Row := rows.filter (·.id? = some id)

def rowsOf (version : RowId) (rows : List Row) : List Row :=
  rows.filter (·.versionId? = some version)

/-- Where every entry has an id of its own, the rows with one of them are those of its entry. -/
theorem filter_flatMap_once {α : Type} {entries : List α} {idOf : α → RowId}
    {rows : α → List Row} {idOfRow? : Row → Option RowId}
    (told : ∀ entry, ∀ row ∈ rows entry, idOfRow? row = some (idOf entry))
    (once : (entries.map idOf).Nodup) {entry : α} (member : entry ∈ entries) :
    (entries.flatMap rows).filter (idOfRow? · = some (idOf entry)) = rows entry := by
  have none : ∀ other : α, idOf other ≠ idOf entry →
      (rows other).filter (idOfRow? · = some (idOf entry)) = [] := by
    intro other different
    rw [List.filter_eq_nil_iff]
    intro row inside same
    rw [told other row inside, decide_eq_true_iff, Option.some.injEq] at same
    exact different same
  induction entries with
  | nil => cases member
  | cons first rest induction =>
      have parts := List.nodup_cons.mp once
      rw [List.flatMap_cons, List.filter_append]
      rcases List.mem_cons.mp member with rfl | inside
      · have whole : (rows entry).filter (idOfRow? · = some (idOf entry)) = rows entry := by
          rw [List.filter_eq_self]
          intro row inside
          exact decide_eq_true (told entry row inside)
        have others : (rest.flatMap rows).filter (idOfRow? · = some (idOf entry)) = [] := by
          rw [List.filter_flatMap, List.flatMap_eq_nil_iff]
          intro other otherMember
          apply none
          intro same
          exact parts.1 (same ▸ List.mem_map_of_mem otherMember)
        rw [whole, others, List.append_nil]
      · have different : idOf first ≠ idOf entry := by
          intro same
          exact parts.1 (same ▸ List.mem_map_of_mem inside)
        rw [none first different, List.nil_append, induction parts.2 inside]

theorem rowsWithId_map {α : Type} {entries : List α} {idOf : α → RowId} {row : α → Row}
    (told : ∀ entry, (row entry).id? = some (idOf entry)) (once : (entries.map idOf).Nodup)
    {entry : α} (member : entry ∈ entries) :
    rowsWithId (idOf entry) (entries.map row) = [row entry] := by
  rw [rowsWithId, List.map_eq_flatMap]
  apply filter_flatMap_once _ once member
  intro other next inside
  rw [List.mem_singleton.mp inside, told]

theorem rowsOf_flatMap {α : Type} {versions : List Version} {entries : Version → List α}
    {row : RowId → α → Row} (told : ∀ id entry, (row id entry).versionId? = some id)
    (once : (versions.map Version.id).Nodup) {version : Version} (member : version ∈ versions) :
    rowsOf version.id (versions.flatMap fun version => (entries version).map (row version.id)) =
      (entries version).map (row version.id) := by
  rw [rowsOf]
  apply filter_flatMap_once _ once member
  intro other next inside
  rcases List.mem_map.mp inside with ⟨entry, _, rfl⟩
  exact told other.id entry

end Database

end WorkspaceGraph
