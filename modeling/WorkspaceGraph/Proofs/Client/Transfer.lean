import WorkspaceGraph.Api.Route
import WorkspaceGraph.Client.Payload
import WorkspaceGraph.Client.Post
import WorkspaceGraph.Client.SnapshotFile
import WorkspaceGraph.Proofs.FileTree.Writing
import WorkspaceGraph.Proofs.Ingestion.Rows
import WorkspaceGraph.Proofs.Json.Lines
import WorkspaceGraph.Proofs.Snapshot.Wire
/-!
The way of a snapshot from the scan to the service. It is written to a file, read back, put into a
payload and sent; what the service takes out of the request is the snapshot that was scanned.
-/

namespace WorkspaceGraph

/-! ## Files -/

namespace Snapshot

theorem toList_render (snapshot : Snapshot) :
    snapshot.render.toList = Json.Writer.write .indented 0 snapshot.toJson ++ ['\n'] := by
  rw [render, Json.render, String.toList_append, String.toList_ofList]
  rfl

theorem parse_render (snapshot : Snapshot) : Json.parse snapshot.render = .ok snapshot.toJson := by
  have blank : Json.Blank ['\n'] := by simp [Json.Blank, Json.Reader.isSpace]
  have read := Json.parse_write Json.readable_indented snapshot.plain_toJson blank
  rwa [← toList_render, String.ofList_toList] at read

theorem return_not_mem_render (snapshot : Snapshot) : '\r' ∉ snapshot.render.toList := by
  have written : '\r' ∉ Json.Writer.write .indented 0 snapshot.toJson :=
    Json.return_not_mem_write (by decide) (by decide) snapshot.plain_toJson 0
  rw [toList_render]
  simp [written]

end Snapshot

namespace Client

theorem checkOutline_record {fields : List (String × Json)}
    (version : Json.lookup "schemaVersion" fields = some (.int 1))
    (lists : ∀ name ∈ SnapshotFileError.listFields,
      ((Json.lookup name fields).bind Json.list?).isSome = true) :
    checkOutline (.record fields) = .ok (.record fields) := by
  have isVersion : ((Json.lookup "schemaVersion" fields).map Schema.isOne).getD false = true := by
    rw [version]
    rfl
  rw [checkOutline, if_pos isVersion, if_pos (List.all_eq_true.mpr lists)]

theorem checkOutline_toJson (snapshot : Snapshot) :
    checkOutline snapshot.toJson = .ok snapshot.toJson := by
  rw [Snapshot.toJson]
  apply checkOutline_record
  · rw [Json.lookup, if_pos (by simp)]
    rfl
  · intro name member
    simp only [SnapshotFileError.listFields, List.mem_cons, List.not_mem_nil, or_false] at member
    rcases member with rfl | rfl | rfl | rfl
    all_goals simp [Json.lookup, Json.list?]

theorem parseSnapshot_render (path : String) (snapshot : Snapshot) :
    parseSnapshot path (Text.Utf8.encode snapshot.render) = .ok snapshot.toJson := by
  rw [parseSnapshot, Text.ofFile?_encode snapshot.return_not_mem_render]
  dsimp only
  rw [snapshot.parse_render]
  exact checkOutline_toJson snapshot

variable {tree written : FileTree} {directory output : String}

theorem readSnapshot_of_write (absolute : directory.toList.head? = some '/') (elsewhere : String)
    (snapshot : Snapshot) (isWritten : tree.write (Path.absolute directory output)
      (Text.Utf8.encode snapshot.render) = .ok written) :
    readSnapshot written elsewhere (Path.absolute directory output) = .ok snapshot.toJson := by
  rcases Path.absolute_rooted output absolute with ⟨names, rooted⟩
  have stays : Path.join elsewhere (Path.absolute directory output) =
      Path.absolute directory output := by
    rw [Path.join, Path.joinChars, if_pos (by simp [rooted.head?]), String.ofList_toList]
  rw [readSnapshot, if_neg (by simp [rooted.notEmpty]), stays,
    FileTree.read_write rooted isWritten]
  dsimp only
  rw [parseSnapshot_render]

/-! ## Payloads -/

def metadataFields (metadata : List (String × String)) : List (String × Json) :=
  metadata.map fun field => (field.1, .text field.2)

theorem mem_metadataFields {metadata : List (String × String)} {field : String × Json}
    (member : field ∈ metadataFields metadata) : ∃ value, field.2 = .text value := by
  rcases List.mem_map.mp member with ⟨known, _, rfl⟩
  exact ⟨known.2, rfl⟩

theorem plain_scannerJson (name : String) (version : Option String) :
    Json.Plain (scannerJson name version) := by
  cases known : nonEmpty version <;> simp [scannerJson, known, Json.DistinctNames]

variable {metadata : List (String × String)}

theorem plain_payload (key workspaceId : String) (trigger : Trigger) (scannerName : String)
    (scannerVersion : Option String)
    (names : metadata.Pairwise fun left right => left.1 ≠ right.1) (snapshot : Snapshot) :
    Json.Plain (payload key workspaceId trigger scannerName scannerVersion
      (metadataFields metadata) snapshot.toJson) := by
  have scanner := plain_scannerJson scannerName scannerVersion
  have origin : Json.DistinctNames (metadataFields metadata) := List.pairwise_map.mpr names
  have texts : ∀ field ∈ metadataFields metadata, Json.Plain field.2 := by
    intro field member
    rcases mem_metadataFields member with ⟨value, same⟩
    rw [same]
    exact .text value
  unfold payload
  split <;> simp [Json.DistinctNames, scanner]
  exact ⟨origin, fun name value member => texts _ member⟩

/-! ## Acceptance -/

theorem check_scannerJson (name : String) (version : Option String) :
    Request.Scanner.check (scannerJson name version) = .valid ⟨name, nonEmpty version⟩ := by
  cases known : nonEmpty version <;>
    simp [Request.Scanner.check, scannerJson, known, Schema.record, Schema.required,
      Schema.optional, Schema.FieldName.find, Schema.FieldName.single, Json.lookup, Schema.nullable]

theorem optional_metadata (field : Schema.FieldName) :
    ∃ value, Schema.optional field none (Schema.nullable Schema.text) (metadataFields metadata) =
      .valid value := by
  unfold Schema.optional
  split
  · rename_i found
    rcases mem_metadataFields (Schema.mem_of_find found) with ⟨text, same⟩
    dsimp only at same
    rw [same]
    exact ⟨some text, rfl⟩
  · exact ⟨none, rfl⟩

theorem check_metadata :
    ∃ origin, Request.Origin.check (.record (metadataFields metadata)) = .valid origin := by
  rcases @optional_metadata metadata (.single "branch") with ⟨branch, isBranch⟩
  rcases @optional_metadata metadata ⟨"commitSha", "commit_sha"⟩ with ⟨commitSha, isCommitSha⟩
  rcases @optional_metadata metadata ⟨"runId", "run_id"⟩ with ⟨runId, isRunId⟩
  exact ⟨⟨branch, commitSha, runId⟩,
    by simp [Request.Origin.check, Schema.record, isBranch, isCommitSha, isRunId]⟩

theorem check_payload (key workspaceId : String) (trigger : Trigger) (scannerName : String)
    (scannerVersion : Option String) (metadata : List (String × String)) (snapshot : Snapshot) :
    ∃ origin, Request.check (payload key workspaceId trigger scannerName scannerVersion
        (metadataFields metadata) snapshot.toJson) =
      .valid ⟨key, workspaceId, trigger, ⟨scannerName, nonEmpty scannerVersion⟩, origin,
        snapshot⟩ := by
  have scanner := check_scannerJson scannerName scannerVersion
  cases isEmpty : (metadataFields metadata).isEmpty with
  | true =>
      exact ⟨none, by simp [Request.check, payload, isEmpty, Schema.record, Schema.required,
        Schema.optional, Schema.FieldName.find, Schema.FieldName.single, Json.lookup, scanner,
        Snapshot.check_toJson, Schema.choice]⟩
  | false =>
      rcases @check_metadata metadata with ⟨origin, isOrigin⟩
      have found : Schema.nullable Request.Origin.check (.record (metadataFields metadata)) =
          .valid (some origin) := by
        rw [Schema.nullable, isOrigin]
        · rfl
        · intro isNull
          cases isNull
      exact ⟨some origin, by simp [Request.check, payload, isEmpty, Schema.record, Schema.required,
        Schema.optional, Schema.FieldName.find, Schema.FieldName.single, Json.lookup, scanner,
        found, Snapshot.check_toJson, Schema.choice]⟩

/-! ## Requests -/

theorem json?_payload (client : Client) (key workspaceId : String) (trigger : Trigger)
    (scannerName : String) (scannerVersion : Option String)
    (names : metadata.Pairwise fun left right => left.1 ≠ right.1) (snapshot : Snapshot)
    (method : String) (target : Api.Target) :
    Api.Call.json? ⟨method, target, Text.Utf8.encode (client.request (payload key workspaceId
        trigger scannerName scannerVersion (metadataFields metadata) snapshot.toJson)).body⟩ =
      some (payload key workspaceId trigger scannerName scannerVersion (metadataFields metadata)
        snapshot.toJson) := by
  have plain := plain_payload key workspaceId trigger scannerName scannerVersion names snapshot
  generalize sent : payload key workspaceId trigger scannerName scannerVersion
    (metadataFields metadata) snapshot.toJson = value at plain
  -- The first two characters are enough to find out the encoding of the body.
  have begins : ∃ more, Json.Writer.write .spaced 0 value = '\x7b' :: '"' :: more := by
    rw [← sent]
    exact ⟨_, rfl⟩
  rcases begins with ⟨more, begins⟩
  have text : Text.decodeDetected? (Text.Utf8.encode (client.request value).body) =
      some (Json.render .spaced value) := by
    rw [request, Json.render, begins]
    exact Text.decodeDetected?_record more
  rw [Api.Call.json?, text]
  dsimp only
  rw [Json.parse_render Json.readable_spaced plain]

/-- A snapshot comes through to the service as it was scanned, whatever its texts are and under
whichever key, workspace, scanner and origin it is posted. -/
theorem snapshot_transferred (absolute : directory.toList.head? = some '/') (elsewhere : String)
    (snapshot : Snapshot) (isWritten : tree.write (Path.absolute directory output)
      (Text.Utf8.encode snapshot.render) = .ok written)
    (client : Client) (key workspaceId : String) (trigger : Trigger) (scannerName : String)
    (scannerVersion : Option String)
    (names : metadata.Pairwise fun left right => left.1 ≠ right.1)
    (method : String) (target : Api.Target) :
    ∃ read value origin,
      readSnapshot written elsewhere (Path.absolute directory output) = .ok read ∧
      Api.Call.json? ⟨method, target, Text.Utf8.encode (client.request (payload key workspaceId
        trigger scannerName scannerVersion (metadataFields metadata) read)).body⟩ = some value ∧
      Request.check value = .valid
        ⟨key, workspaceId, trigger, ⟨scannerName, nonEmpty scannerVersion⟩, origin, snapshot⟩ := by
  have isRead := readSnapshot_of_write absolute elsewhere snapshot isWritten
  have received := json?_payload client key workspaceId trigger scannerName scannerVersion names
    snapshot method target
  rcases check_payload key workspaceId trigger scannerName scannerVersion metadata snapshot with
    ⟨origin, accepted⟩
  exact ⟨_, _, origin, isRead, received, accepted⟩

/-- A snapshot with quotes, backslashes, line ends of several kinds and characters of every plane in
its texts. -/
def awkwardSnapshot : Snapshot where
  workspaceConfigPath := "C:\\angular \"2\".json"
  projects := [⟨"a\r\nb", .library, "", none, "\u2028\x00", ["é", "😀"]⟩]
  libraries := [⟨"a\r\nb", "", some "\x7f", "\ufeff"⟩]
  components := [⟨"\t", some "", none, some false, "a\r\nb", "/", []⟩]
  edges := [⟨"a\r\nb", "😀", ["𝄞"]⟩]

def buildMetadata : List (String × String) := [("branch", "main"), ("note", "\"")]

def oneAttempt : Client where
  url := "http://localhost"
  token := none
  timeout := .whole 30
  attempts := 1
  initialPause := .whole 2
  greatestPause := .whole 15

theorem snapshot_transferred_awkward :
    "/work".toList.head? = some '/' ∧
    (buildMetadata.Pairwise fun left right => left.1 ≠ right.1) ∧
    ∃ written read value origin,
      FileTree.empty.write (Path.absolute "/work" "out/../graph.json")
        (Text.Utf8.encode awkwardSnapshot.render) = .ok written ∧
      readSnapshot written "/elsewhere" (Path.absolute "/work" "out/../graph.json") = .ok read ∧
      Api.Call.json? ⟨"POST", ⟨"/api/v1/scanner/ingest", []⟩,
        Text.Utf8.encode (oneAttempt.request (payload "key" "team/repo" .pipeline "scanner"
          (some "") (metadataFields buildMetadata) read)).body⟩ = some value ∧
      Request.check value = .valid
        ⟨"key", "team/repo", .pipeline, ⟨"scanner", nonEmpty (some "")⟩, origin,
          awkwardSnapshot⟩ := by
  have absolute : "/work".toList.head? = some '/' := rfl
  have names : buildMetadata.Pairwise fun left right => left.1 ≠ right.1 := by
    simp [buildMetadata]
  have isWritten : FileTree.empty.write (Path.absolute "/work" "out/../graph.json")
      (Text.Utf8.encode awkwardSnapshot.render) = .ok (.directory [("work", .directory
        [("graph.json", .file (Text.Utf8.encode awkwardSnapshot.render))])]) := by
    generalize Text.Utf8.encode awkwardSnapshot.render = content
    rfl
  have transferred := snapshot_transferred absolute "/elsewhere" awkwardSnapshot isWritten
    oneAttempt "key" "team/repo" .pipeline "scanner" (some "") names "POST"
    ⟨"/api/v1/scanner/ingest", []⟩
  rcases transferred with ⟨read, value, origin, isRead, received, accepted⟩
  exact ⟨absolute, names, _, read, value, origin, isWritten, isRead, received, accepted⟩

end Client

end WorkspaceGraph
