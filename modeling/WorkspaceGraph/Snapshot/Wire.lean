import WorkspaceGraph.Snapshot.Basic
import WorkspaceGraph.Schema.Checked
import WorkspaceGraph.Json.Writer
/-!
The wire form of a snapshot: the JSON it is stored, sent and fingerprinted in, and the check by
which such JSON is accepted.
-/

namespace WorkspaceGraph.Snapshot

/-! ## Writing -/

def ProjectNode.toJson (project : ProjectNode) : Json :=
  .record [
    ("name", .text project.name),
    ("type", .text project.type.text),
    ("rootPath", .text project.rootPath),
    ("sourceRootPath", .textOrNull project.sourceRootPath),
    ("configFilePath", .text project.configFilePath),
    ("dependencies", .texts project.dependencies)]

def LibraryNode.toJson (library : LibraryNode) : Json :=
  .record [
    ("name", .text library.name),
    ("rootPath", .text library.rootPath),
    ("sourceRootPath", .textOrNull library.sourceRootPath),
    ("configFilePath", .text library.configFilePath)]

def ComponentNode.toJson (component : ComponentNode) : Json :=
  .record [
    ("name", .text component.name),
    ("className", .textOrNull component.className),
    ("selector", .textOrNull component.selector),
    ("standalone", .boolOrNull component.standalone),
    ("project", .text component.project),
    ("filePath", .text component.filePath),
    ("dependencies", .texts component.dependencies)]

def Edge.toJson (edge : Edge) : Json :=
  .record [
    ("sourceProject", .text edge.source),
    ("targetProject", .text edge.target),
    ("viaFiles", .texts edge.files)]

def toJson (snapshot : Snapshot) : Json :=
  .record [
    ("schemaVersion", .nat schemaVersion),
    ("workspaceConfigPath", .text snapshot.workspaceConfigPath),
    ("projects", .list (snapshot.projects.map ProjectNode.toJson)),
    ("libs", .list (snapshot.libraries.map LibraryNode.toJson)),
    ("components", .list (snapshot.components.map ComponentNode.toJson)),
    ("dependencies", .list (snapshot.edges.map Edge.toJson))]

def render (snapshot : Snapshot) : String := Json.render .indented snapshot.toJson ++ "\n"

/-! ## Checking -/

section

open Schema

def rootPathField : FieldName := ⟨"rootPath", "root_path"⟩

def sourceRootPathField : FieldName := ⟨"sourceRootPath", "source_root_path"⟩

def configFilePathField : FieldName := ⟨"configFilePath", "config_file_path"⟩

def ProjectNode.check : Check ProjectNode :=
  Schema.record "ScanProject" fun fields =>
    ProjectNode.mk
      <$> required (.single "name") Schema.text fields
      <*> required (.single "type") (choice ProjectType.ofText? ["application", "library"]) fields
      <*> required rootPathField Schema.text fields
      <*> required sourceRootPathField (nullable Schema.text) fields
      <*> required configFilePathField Schema.text fields
      <*> required (.single "dependencies") (list Schema.text) fields

def LibraryNode.check : Check LibraryNode :=
  Schema.record "ScanLibrary" fun fields =>
    LibraryNode.mk
      <$> required (.single "name") Schema.text fields
      <*> required rootPathField Schema.text fields
      <*> required sourceRootPathField (nullable Schema.text) fields
      <*> required configFilePathField Schema.text fields

def ComponentNode.check : Check ComponentNode :=
  Schema.record "ScanComponent" fun fields =>
    ComponentNode.mk
      <$> required (.single "name") Schema.text fields
      <*> required ⟨"className", "class_name"⟩ (nullable Schema.text) fields
      <*> required (.single "selector") (nullable Schema.text) fields
      <*> required (.single "standalone") (nullable Schema.bool) fields
      <*> required (.single "project") Schema.text fields
      <*> required ⟨"filePath", "file_path"⟩ Schema.text fields
      <*> required (.single "dependencies") (list Schema.text) fields

def Edge.check : Check Edge :=
  Schema.record "ScanDependency" fun fields =>
    Edge.mk
      <$> required ⟨"sourceProject", "source_project"⟩ Schema.text fields
      <*> required ⟨"targetProject", "target_project"⟩ Schema.text fields
      <*> required ⟨"viaFiles", "via_files"⟩ (list Schema.text) fields

def check : Check Snapshot :=
  Schema.record "ScanSnapshot" fun fields =>
    (fun _ => Snapshot.mk)
      <$> required ⟨"schemaVersion", "schema_version"⟩ version fields
      <*> required ⟨"workspaceConfigPath", "workspace_config_path"⟩ Schema.text fields
      <*> required (.single "projects") (list ProjectNode.check) fields
      <*> required (.single "libs") (list LibraryNode.check) fields
      <*> required (.single "components") (list ComponentNode.check) fields
      <*> required (.single "dependencies") (list Edge.check) fields

end

end WorkspaceGraph.Snapshot
