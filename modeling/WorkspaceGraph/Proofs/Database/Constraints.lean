import WorkspaceGraph.Database.Migration
import WorkspaceGraph.Proofs.Database.Rows
import WorkspaceGraph.Proofs.Store.Tables
/-!
Which rows the tables admit: every column takes what stands in it, and the checks pass. Whether a
row clashes with another one, where a key has to be unique, is no matter of a single row and told
apart.
-/

namespace WorkspaceGraph

namespace Database

/-! ## Columns -/

def ColumnType.takes : ColumnType → Cell → Bool
  | .id, .id _ => true
  | .varchar limit, .text value => value.length ≤ limit
  | .text, .text _ => true
  | .integer, .integer _ => true
  | .boolean, .boolean _ => true
  | .json, .json _ => true
  | .moment, .moment _ => true
  | _, _ => false

def Column.takes (column : Column) : Cell → Bool
  | .null => column.nullable
  | cell => column.type.takes cell

def Row.filled (id : RowId) (now : Instant) (row : Row) : Row :=
  row ++ [("id", .id id), ("created_at", .moment now), ("updated_at", .moment now)]

/-! ## Checks -/

/-- What a check asks of a row. Whatever is null passes. -/
inductive Condition
  | among (column : String) (words : List String)
  | atLeast (column : String) (least : Int)
  | differ (column other : String)

namespace Condition

def text : Condition → String
  | among column words =>
      column ++ " IN (" ++ ", ".intercalate (words.map fun word => "'" ++ word ++ "'") ++ ")"
  | atLeast column least => column ++ " >= " ++ toString least
  | differ column other => column ++ " <> " ++ other

def holds (row : Row) : Condition → Bool
  | among column words =>
      match row.cell column with
      | .text word => words.contains word
      | .null => true
      | _ => false
  | atLeast column least =>
      match row.cell column with
      | .integer value => least ≤ value
      | .null => true
      | _ => false
  | differ column other =>
      match row.cell column, row.cell other with
      | .text left, .text right => left != right
      | .null, _ | _, .null => true
      | _, _ => false

def named : String → Option Condition
  | "scan_runs_status_check" => some (among "status" ["processing", "succeeded", "failed"])
  | "scan_runs_source_check" => some (among "source" ["manual", "pipeline", "scheduled"])
  | "scan_runs_attempt_count_check" => some (atLeast "attempt_count" 1)
  | "graph_versions_version_check" => some (atLeast "version" 1)
  | "graph_dependencies_no_self_edge" => some (differ "source_project" "target_project")
  | _ => none

end Condition

def RowCheck.holds (check : RowCheck) (row : Row) : Bool :=
  (Condition.named check.name).any fun condition =>
    condition.text == check.condition && condition.holds row

/-! ## Tables -/

structure Table.Admits (table : Table) (row : Row) : Prop where
  known : row.all fun entry => table.columns.any fun column => column.name == entry.1
  values : ∀ id now, ∀ column ∈ table.columns, column.takes ((row.filled id now).cell column.name)
  checks : ∀ check ∈ table.checks, check.holds row

theorem Table.Admits.of_each {table : Table} {row : Row}
    (known : row.all fun entry => table.columns.any fun column => column.name == entry.1)
    (values : ∀ id now,
      table.columns.Forall fun column => column.takes ((row.filled id now).cell column.name))
    (checks : table.checks.Forall fun check => check.holds row) : table.Admits row :=
  ⟨known, fun id now => List.forall_iff_forall_mem.mp (values id now),
    List.forall_iff_forall_mem.mp checks⟩

def Table.uniques (table : Table) : List (List String) :=
  (table.indexes.filter Index.unique).map Index.columns ++ table.uniqueKeys.map UniqueKey.columns

def Table.Clashes (table : Table) (rows : List Row) (row : Row) : Prop :=
  ∃ columns ∈ table.uniques, ∃ other ∈ rows, ∀ column ∈ columns,
    other.cell column = row.cell column

theorem Column.takes_orNull {α : Type} {column : Column} {make : α → Cell} {value? : Option α}
    (nullable : column.nullable)
    (takes : ∀ value, value? = some value → column.takes (make value)) :
    column.takes (.orNull make value?) := by
  cases value? with
  | none => exact nullable
  | some value => exact takes value rfl

end Database

open Database

/-! ## Rows that the tables admit -/

structure Run.Fits (run : Run) : Prop where
  key : run.key.length ≤ 128
  payloadHash : run.payloadHash.length ≤ 16
  workspaceId : run.workspaceId.length ≤ 128
  scannerName : run.scanner.name.length ≤ 128
  scannerVersion : ∀ version, run.scanner.version = some version → version.length ≤ 64
  attempts : 1 ≤ run.attempts
  errorCode : ∀ code, run.errorCode = some code → code.length ≤ 64
  errorMessage : ∀ message, run.errorMessage = some message → message.length ≤ 512

structure Version.Fits (version : Version) : Prop where
  workspaceId : version.workspaceId.length ≤ 128
  number : 1 ≤ version.number
  payloadHash : version.payloadHash.length ≤ 16
  edges : ∀ edge ∈ version.edges, edge.source ≠ edge.target

theorem Run.Fits.admits {run : Run} (fits : run.Fits) : Table.runs.Admits run.row := by
  apply Table.Admits.of_each rfl
  · intro id now
    have trigger : run.trigger.text.length ≤ 20 := by cases run.trigger <;> decide
    have status : run.status.text.length ≤ 20 := by cases run.status <;> decide
    refine ⟨rfl, decide_eq_true fits.key, decide_eq_true fits.payloadHash,
      decide_eq_true fits.workspaceId, decide_eq_true fits.scannerName, ?_, decide_eq_true trigger,
      decide_eq_true status, rfl, rfl, rfl, rfl, rfl, rfl, ?_, ?_, ?_, ?_, rfl, ?_, rfl, rfl⟩
    · apply Column.takes_orNull rfl
      intro version same
      exact decide_eq_true (fits.scannerVersion version same)
    · exact Column.takes_orNull rfl fun _ _ => rfl
    · exact Column.takes_orNull rfl fun _ _ => rfl
    · apply Column.takes_orNull rfl
      intro code same
      exact decide_eq_true (fits.errorCode code same)
    · apply Column.takes_orNull rfl
      intro message same
      exact decide_eq_true (fits.errorMessage message same)
    · exact Column.takes_orNull rfl fun _ _ => rfl
  · have status : ["processing", "succeeded", "failed"].contains run.status.text := by
      cases run.status <;> decide
    have trigger : ["manual", "pipeline", "scheduled"].contains run.trigger.text := by
      cases run.trigger <;> decide
    have attempts : (1 : Int) ≤ run.attempts := by
      have positive := fits.attempts
      omega
    exact ⟨status, trigger, decide_eq_true attempts⟩

theorem Version.Fits.admits {version : Version} (fits : version.Fits) :
    Table.versions.Admits version.row := by
  apply Table.Admits.of_each rfl
  · intro id now
    exact ⟨rfl, decide_eq_true fits.workspaceId, rfl, rfl, decide_eq_true fits.payloadHash, rfl,
      rfl, rfl, rfl, rfl, rfl, rfl⟩
  · have number : (1 : Int) ≤ version.number := by
      have positive := fits.number
      omega
    exact decide_eq_true number

theorem Head.admits {head : Head} (workspaceId : head.workspaceId.length ≤ 128) :
    Table.heads.Admits head.row := by
  apply Table.Admits.of_each rfl
  · intro id now
    exact ⟨rfl, decide_eq_true workspaceId, rfl, rfl⟩
  · trivial

theorem Snapshot.ProjectNode.admits (version : RowId) (project : ProjectNode) :
    Table.projects.Admits (project.row version) := by
  apply Table.Admits.of_each rfl
  · intro id now
    have type : project.type.text.length ≤ 20 := by cases project.type <;> decide
    refine ⟨rfl, rfl, rfl, decide_eq_true type, rfl, ?_, rfl, rfl⟩
    exact Column.takes_orNull rfl fun _ _ => rfl
  · trivial

theorem Snapshot.ComponentNode.admits (version : RowId) (component : ComponentNode) :
    Table.components.Admits (component.row version) := by
  apply Table.Admits.of_each rfl
  · intro id now
    refine ⟨rfl, rfl, rfl, ?_, ?_, ?_, rfl, rfl, rfl⟩
    · exact Column.takes_orNull rfl fun _ _ => rfl
    · exact Column.takes_orNull rfl fun _ _ => rfl
    · exact Column.takes_orNull rfl fun _ _ => rfl
  · trivial

theorem Snapshot.Edge.admits (version : RowId) {edge : Edge} (leads : edge.source ≠ edge.target) :
    Table.edges.Admits (edge.row version) := by
  apply Table.Admits.of_each rfl
  · intro id now
    exact ⟨rfl, rfl, rfl, rfl, rfl⟩
  · exact bne_iff_ne.mpr leads

/-! ## Rows that clash -/

theorem Database.not_clashes {table : Table}
    (isPart : table ∈ [Table.projects, Table.components, Table.edges]) (rows : List Row)
    (row : Row) : ¬table.Clashes rows row := by
  have none : ∀ table ∈ [Table.projects, Table.components, Table.edges], table.uniques = [] := by
    decide
  intro clash
  rcases clash with ⟨columns, member, -⟩
  rw [none table isPart] at member
  cases member

namespace Store

variable {store : Store}

def HasKey (store : Store) (key : String) : Prop := ∃ run ∈ store.runs, run.key = key

def HasVersion (store : Store) (workspaceId : String) (number : Nat) : Prop :=
  ∃ version ∈ store.versions, version.workspaceId = workspaceId ∧ version.number = number

def HasHead (store : Store) (workspaceId : String) : Prop :=
  ∃ head ∈ store.heads, head.workspaceId = workspaceId

theorem runWithKey?_ne_none {key : String} :
    store.runWithKey? key ≠ none ↔ store.HasKey key := by
  simp [runWithKey?, HasKey]

theorem version?_ne_none {workspaceId : String} {number : Nat} :
    store.version? workspaceId number ≠ none ↔ store.HasVersion workspaceId number := by
  simp [version?, HasVersion]

theorem isSome_head? {workspaceId : String} :
    (store.head? workspaceId).isSome ↔ store.HasHead workspaceId := by
  simp [head?, HasHead]

/-- The row of the version, or one of its nodes and edges, clashes with a row that is there. -/
def Clashes (store : Store) (version : Version) : Prop :=
  Table.versions.Clashes store.versionRows version.row ∨
  (∃ project ∈ version.projects,
    Table.projects.Clashes store.projectRows (project.row version.id)) ∨
  (∃ component ∈ version.components,
    Table.components.Clashes store.componentRows (component.row version.id)) ∨
  ∃ edge ∈ version.edges, Table.edges.Clashes store.edgeRows (edge.row version.id)

theorem clashes_run {run : Run} :
    Table.runs.Clashes store.runRows run.row ↔ store.HasKey run.key := by
  have uniques : Table.runs.uniques = [["idempotency_key"]] := rfl
  have cell : ∀ other : Run, other.row.cell "idempotency_key" = .text other.key := fun _ => rfl
  simp [Table.Clashes, uniques, HasKey, runRows, cell]

theorem clashes_version {version : Version} :
    store.Clashes version ↔ store.HasVersion version.workspaceId version.number := by
  have uniques : Table.versions.uniques = [["workspace_id", "version"]] := rfl
  have workspaceId : ∀ other : Version, other.row.cell "workspace_id" = .text other.workspaceId :=
    fun _ => rfl
  have number : ∀ other : Version, other.row.cell "version" = version.row.cell "version" ↔
      other.number = version.number := by
    intro other
    constructor
    · intro same
      exact Int.ofNat.inj (Cell.integer.inj same)
    · intro same
      exact congrArg (fun number : Nat => Cell.integer number) same
  have row : Table.versions.Clashes store.versionRows version.row ↔
      store.HasVersion version.workspaceId version.number := by
    simp [Table.Clashes, uniques, HasVersion, versionRows, workspaceId, number]
  simp [Clashes, row, not_clashes]

theorem clashes_head {head : Head} :
    Table.heads.Clashes store.headRows head.row ↔ store.HasHead head.workspaceId := by
  have uniques : Table.heads.uniques = [["workspace_id"]] := rfl
  have cell : ∀ other : Head, other.row.cell "workspace_id" = .text other.workspaceId :=
    fun _ => rfl
  simp [Table.Clashes, uniques, HasHead, headRows, cell]

end Store

/-! ## Tables that keep their constraints -/

namespace Store

/-- The tables admit all their rows, and every row that refers to another one refers to one that is
there. -/
structure Lawful (store : Store) : Prop where
  runs : ∀ row ∈ store.runRows, Table.runs.Admits row
  versions : ∀ row ∈ store.versionRows, Table.versions.Admits row
  heads : ∀ row ∈ store.headRows, Table.heads.Admits row
  projects : ∀ row ∈ store.projectRows, Table.projects.Admits row
  components : ∀ row ∈ store.componentRows, Table.components.Admits row
  edges : ∀ row ∈ store.edgeRows, Table.edges.Admits row
  runReferences : ∀ row ∈ store.versionRows, ∃ run ∈ store.runRows,
    row.cell "scan_run_id" = run.cell "id"
  versionReferences : ∀ row ∈ store.projectRows ++ store.componentRows ++ store.edgeRows,
    ∃ version ∈ store.versionRows, row.cell "version_id" = version.cell "id"

structure Fits (store : Store) : Prop where
  runs : ∀ run ∈ store.runs, run.Fits
  versions : ∀ version ∈ store.versions, version.Fits
  heads : ∀ head ∈ store.heads, head.workspaceId.length ≤ 128
  origins : ∀ version ∈ store.versions, ∃ run ∈ store.runs, run.id = version.runId

theorem references_flatMap {α : Type} {store : Store} {entries : Version → List α}
    {rowOf : RowId → α → Row} (told : ∀ id entry, (rowOf id entry).cell "version_id" = .id id)
    {row : Row} (member : row ∈ store.versions.flatMap fun version =>
      (entries version).map (rowOf version.id)) :
    ∃ version ∈ store.versionRows, row.cell "version_id" = version.cell "id" := by
  rcases List.mem_flatMap.mp member with ⟨version, versionMember, inside⟩
  rcases List.mem_map.mp inside with ⟨entry, _, rfl⟩
  exact ⟨version.row, List.mem_map_of_mem versionMember, told version.id entry⟩

theorem Fits.lawful {store : Store} (fits : store.Fits) : store.Lawful where
  runs := by
    intro row member
    rcases List.mem_map.mp member with ⟨run, runMember, rfl⟩
    exact (fits.runs run runMember).admits
  versions := by
    intro row member
    rcases List.mem_map.mp member with ⟨version, versionMember, rfl⟩
    exact (fits.versions version versionMember).admits
  heads := by
    intro row member
    rcases List.mem_map.mp member with ⟨head, headMember, rfl⟩
    exact Head.admits (fits.heads head headMember)
  projects := by
    intro row member
    rcases List.mem_flatMap.mp member with ⟨version, versionMember, inside⟩
    rcases List.mem_map.mp inside with ⟨project, _, rfl⟩
    exact project.admits version.id
  components := by
    intro row member
    rcases List.mem_flatMap.mp member with ⟨version, versionMember, inside⟩
    rcases List.mem_map.mp inside with ⟨component, _, rfl⟩
    exact component.admits version.id
  edges := by
    intro row member
    rcases List.mem_flatMap.mp member with ⟨version, versionMember, inside⟩
    rcases List.mem_map.mp inside with ⟨edge, edgeMember, rfl⟩
    exact edge.admits version.id ((fits.versions version versionMember).edges edge edgeMember)
  runReferences := by
    intro row member
    rcases List.mem_map.mp member with ⟨version, versionMember, rfl⟩
    rcases fits.origins version versionMember with ⟨run, runMember, origin⟩
    exact ⟨run.row, List.mem_map_of_mem runMember, congrArg Cell.id origin.symm⟩
  versionReferences := by
    intro row member
    rcases List.mem_append.mp member with member | member
    · rcases List.mem_append.mp member with member | member
      · exact references_flatMap (fun _ _ => rfl) member
      · exact references_flatMap (fun _ _ => rfl) member
    · exact references_flatMap (fun _ _ => rfl) member

/-! ## Changes of one row -/

namespace Fits

variable {store : Store}

theorem empty : Store.empty.Fits where
  runs := by simp [Store.empty]
  versions := by simp [Store.empty]
  heads := by simp [Store.empty]
  origins := by simp [Store.empty]

theorem addRun (fits : store.Fits) {run : Run} (runFits : run.Fits) : (store.addRun run).Fits where
  runs := by
    intro other member
    rcases List.mem_append.mp member with member | member
    · exact fits.runs other member
    · rw [List.mem_singleton.mp member]
      exact runFits
  versions := fits.versions
  heads := fits.heads
  origins := by
    intro version member
    rcases fits.origins version member with ⟨run, runMember, origin⟩
    exact ⟨run, List.mem_append_left _ runMember, origin⟩

theorem putRun (fits : store.Fits) {run old : Run} (found : store.run? run.id = some old)
    (runFits : run.Fits) : (store.putRun run).Fits where
  runs := by
    intro other member
    rcases (mem_putRun found).mp member with rfl | ⟨member, -⟩
    · exact runFits
    · exact fits.runs other member
  versions := fits.versions
  heads := fits.heads
  origins := by
    intro version member
    rcases fits.origins version member with ⟨other, otherMember, origin⟩
    by_cases same : other.id = run.id
    · exact ⟨run, (mem_putRun found).mpr (.inl rfl), same.symm.trans origin⟩
    · exact ⟨other, (mem_putRun found).mpr (.inr ⟨otherMember, same⟩), origin⟩

theorem addVersion (fits : store.Fits) {version : Version} (versionFits : version.Fits)
    {run : Run} (member : run ∈ store.runs) (origin : run.id = version.runId) :
    (store.addVersion version).Fits where
  runs := fits.runs
  versions := by
    intro other otherMember
    rcases List.mem_append.mp otherMember with otherMember | otherMember
    · exact fits.versions other otherMember
    · rw [List.mem_singleton.mp otherMember]
      exact versionFits
  heads := fits.heads
  origins := by
    intro other otherMember
    rcases List.mem_append.mp otherMember with otherMember | otherMember
    · exact fits.origins other otherMember
    · rw [List.mem_singleton.mp otherMember]
      exact ⟨run, member, origin⟩

theorem putHead (fits : store.Fits) {head : Head} (workspaceId : head.workspaceId.length ≤ 128) :
    (store.putHead head).Fits where
  runs := fits.runs
  versions := fits.versions
  heads := by
    intro other member
    have named : other.workspaceId ∈
        (Transaction.setHead head store.heads).map Head.workspaceId :=
      List.mem_map_of_mem member
    have before : ∀ name ∈ store.heads.map Head.workspaceId, name.length ≤ 128 :=
      List.forall_mem_map.mpr fits.heads
    rw [map_setHead] at named
    split at named
    · exact before _ named
    · rcases List.mem_append.mp named with named | named
      · exact before _ named
      · rw [List.mem_singleton.mp named]
        exact workspaceId
  origins := fits.origins

end Fits

end Store

end WorkspaceGraph
