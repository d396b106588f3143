import WorkspaceGraph.Json.Value
import WorkspaceGraph.Order
/-!
The tables of the database, and the migration that makes them and takes them away again. A step
of a migration stops at the first table that stands in its way.
-/

namespace WorkspaceGraph.Database

/-! ## Tables -/

inductive ColumnType
  | id
  | varchar (length : Nat)
  | text
  | integer
  | boolean
  | json
  | moment
deriving DecidableEq, Repr

def ColumnType.show : ColumnType → String
  | id => "CHAR(32)"
  | varchar length => "VARCHAR(" ++ toString length ++ ")"
  | text => "TEXT"
  | integer => "INTEGER"
  | boolean => "BOOLEAN"
  | json => "JSON"
  | moment => "DATETIME"

structure Column where
  name : String
  type : ColumnType
  nullable : Bool
deriving DecidableEq, Repr

structure Index where
  name : String
  columns : List String
  unique : Bool
deriving DecidableEq, Repr

structure UniqueKey where
  name : String
  columns : List String
deriving DecidableEq, Repr

structure RowCheck where
  name : String
  condition : String
deriving DecidableEq, Repr

structure Table where
  name : String
  columns : List Column
  indexes : List Index
  uniqueKeys : List UniqueKey
  checks : List RowCheck
deriving DecidableEq, Repr

namespace Table

def present (name : String) (type : ColumnType) : Column := ⟨name, type, false⟩

def nullable (name : String) (type : ColumnType) : Column := ⟨name, type, true⟩

def runs : Table where
  name := "scan_runs"
  columns := [
    present "id" .id,
    present "idempotency_key" (.varchar 128),
    present "payload_hash" (.varchar 16),
    present "workspace_id" (.varchar 128),
    present "scanner_name" (.varchar 128),
    nullable "scanner_version" (.varchar 64),
    present "source" (.varchar 20),
    present "status" (.varchar 20),
    present "attempt_count" .integer,
    present "project_count" .integer,
    present "library_count" .integer,
    present "component_count" .integer,
    present "dependency_count" .integer,
    nullable "metadata" .json,
    nullable "graph_version_id" .id,
    nullable "graph_version_number" .integer,
    nullable "error_code" (.varchar 64),
    nullable "error_message" (.varchar 512),
    present "started_at" .moment,
    nullable "completed_at" .moment,
    present "created_at" .moment,
    present "updated_at" .moment]
  indexes := [
    ⟨"ix_scan_runs_idempotency_key", ["idempotency_key"], true⟩,
    ⟨"ix_scan_runs_workspace_id", ["workspace_id"], false⟩,
    ⟨"ix_scan_runs_workspace_status_started_at", ["workspace_id", "status", "started_at"], false⟩]
  uniqueKeys := []
  checks := [
    ⟨"scan_runs_status_check", "status IN ('processing', 'succeeded', 'failed')"⟩,
    ⟨"scan_runs_source_check", "source IN ('manual', 'pipeline', 'scheduled')"⟩,
    ⟨"scan_runs_attempt_count_check", "attempt_count >= 1"⟩]

def versions : Table where
  name := "graph_versions"
  columns := [
    present "id" .id,
    present "workspace_id" (.varchar 128),
    present "version" .integer,
    present "scan_run_id" .id,
    present "payload_hash" (.varchar 16),
    present "schema_version" .integer,
    present "workspace_config_path" .text,
    present "project_count" .integer,
    present "library_count" .integer,
    present "component_count" .integer,
    present "dependency_count" .integer,
    present "created_at" .moment]
  indexes := [
    ⟨"ix_graph_versions_workspace_id", ["workspace_id"], false⟩,
    ⟨"ix_graph_versions_scan_run_id", ["scan_run_id"], false⟩]
  uniqueKeys := [⟨"uq_graph_versions_workspace_version", ["workspace_id", "version"]⟩]
  checks := [⟨"graph_versions_version_check", "version >= 1"⟩]

def heads : Table where
  name := "graph_heads"
  columns := [
    present "id" .id,
    present "workspace_id" (.varchar 128),
    present "latest_version" .integer,
    present "updated_at" .moment]
  indexes := [⟨"ix_graph_heads_workspace_id", ["workspace_id"], true⟩]
  uniqueKeys := []
  checks := []

def projects : Table where
  name := "graph_projects"
  columns := [
    present "id" .id,
    present "version_id" .id,
    present "name" .text,
    present "type" (.varchar 20),
    present "root_path" .text,
    nullable "source_root_path" .text,
    present "config_file_path" .text,
    present "dependencies" .json]
  indexes := [⟨"ix_graph_projects_version_id", ["version_id"], false⟩]
  uniqueKeys := []
  checks := []

def components : Table where
  name := "graph_components"
  columns := [
    present "id" .id,
    present "version_id" .id,
    present "name" .text,
    nullable "class_name" .text,
    nullable "selector" .text,
    nullable "standalone" .boolean,
    present "project" .text,
    present "file_path" .text,
    present "dependencies" .json]
  indexes := [⟨"ix_graph_components_version_id", ["version_id"], false⟩]
  uniqueKeys := []
  checks := []

def edges : Table where
  name := "graph_dependencies"
  columns := [
    present "id" .id,
    present "version_id" .id,
    present "source_project" .text,
    present "target_project" .text,
    present "via_files" .json]
  indexes := [⟨"ix_graph_dependencies_version_id", ["version_id"], false⟩]
  uniqueKeys := []
  checks := [⟨"graph_dependencies_no_self_edge", "source_project <> target_project"⟩]

def all : List Table := [runs, versions, heads, projects, components, edges]

def toJson (table : Table) : Json :=
  .record [
    ("columns", .list (table.columns.map fun column =>
      .list [.text column.name, .text column.type.show, .bool column.nullable])),
    ("indexes", .list ((Order.sortOn (fun index => [index.name]) table.indexes).map fun index =>
      .list [.text index.name, .texts index.columns, .bool index.unique])),
    ("uniques", .list ((Order.sortOn (fun key => [key.name]) table.uniqueKeys).map fun key =>
      .list [.text key.name, .texts key.columns])),
    ("checks", .list ((Order.sortOn (fun check => [check.name]) table.checks).map fun check =>
      .texts [check.name, check.condition]))]

end Table

/-! ## Migrating -/

inductive Direction
  | upgrade
  | downgrade
deriving DecidableEq, Repr

inductive MigrationError
  | present (table : String)
  | missing (table : String)
deriving DecidableEq, Repr

def MigrationError.message : MigrationError → String
  | present table => "table " ++ table ++ " already exists"
  | missing table => "no such table: " ++ table

namespace Migration

def has (name : String) (tables : List Table) : Bool := tables.any fun table => table.name == name

def create : List Table → List Table → List Table × Option MigrationError
  | [], tables => (tables, none)
  | table :: rest, tables =>
      if has table.name tables then (tables, some (.present table.name))
      else create rest (tables ++ [table])

def drop : List Table → List Table → List Table × Option MigrationError
  | [], tables => (tables, none)
  | table :: rest, tables =>
      if has table.name tables then
        drop rest (tables.filter fun other => other.name != table.name)
      else (tables, some (.missing table.name))

def run : Direction → List Table → List Table × Option MigrationError
  | .upgrade, tables => create Table.all tables
  | .downgrade, tables => drop Table.all.reverse tables

def runAll : List Direction → List Table → List (List Table × Option MigrationError)
  | [], _ => []
  | step :: rest, tables =>
      let after := run step tables
      after :: runAll rest after.1

end Migration

end WorkspaceGraph.Database
