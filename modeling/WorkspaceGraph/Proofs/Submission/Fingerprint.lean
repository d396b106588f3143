import WorkspaceGraph.Proofs.Snapshot.Wire
import WorkspaceGraph.Proofs.Submission.Preparation
import WorkspaceGraph.Proofs.Text.Utf8
/-!
What a fingerprint is taken of. The bytes that are hashed tell which workspace, scanner and snapshot
were submitted: no two payloads that differ in more than the order of fields have the same bytes.
-/

namespace WorkspaceGraph

/-! ## Payloads -/

namespace Digest

variable (workspaceId scannerName : String) (scannerVersion : Option String)

theorem plain_payload {snapshot : Json} (plain : Json.Plain snapshot) :
    Json.Plain (payload workspaceId scannerName scannerVersion snapshot) := by
  cases scannerVersion <;> simp [payload, Json.DistinctNames, plain]

structure Tells (record snapshot : Json) : Prop where
  workspaceId : record.field? "workspaceId" = some (.text workspaceId)
  scannerName : record.field? "scannerName" = some (.text scannerName)
  snapshot : record.field? "snapshot" = some snapshot
  scannerVersion : record.field? "scannerVersion" = scannerVersion.map .text

theorem tells_payload (snapshot : Json) :
    Tells workspaceId scannerName scannerVersion
      (payload workspaceId scannerName scannerVersion snapshot) snapshot := by
  cases scannerVersion <;> constructor <;> simp [payload, Json.field?, Json.lookup]

theorem tells_sorted (snapshot : Snapshot) :
    Tells workspaceId scannerName scannerVersion
      (payload workspaceId scannerName scannerVersion snapshot.toJson).sorted
      snapshot.toJson.sorted := by
  have told := tells_payload workspaceId scannerName scannerVersion snapshot.toJson
  have sorted := Json.field?_sorted
    (plain_payload workspaceId scannerName scannerVersion snapshot.plain_toJson)
  constructor
  · rw [sorted, told.workspaceId]
    rfl
  · rw [sorted, told.scannerName]
    rfl
  · rw [sorted, told.snapshot]
    rfl
  · -- Without a version there is no such field, which no version can be mistaken for.
    rw [sorted, told.scannerVersion]
    cases scannerVersion <;> rfl

variable {workspaceId scannerName scannerVersion}

/-- Payloads with the same stable text are of the same parts. -/
theorem stableText_payload_inj {otherWorkspaceId otherScannerName : String}
    {otherScannerVersion : Option String} {snapshot other : Snapshot} :
    (payload workspaceId scannerName scannerVersion snapshot.toJson).stableText =
        (payload otherWorkspaceId otherScannerName otherScannerVersion other.toJson).stableText ↔
      workspaceId = otherWorkspaceId ∧ scannerName = otherScannerName ∧
        scannerVersion = otherScannerVersion ∧ snapshot = other := by
  have plain := plain_payload workspaceId scannerName scannerVersion snapshot.plain_toJson
  have otherPlain :=
    plain_payload otherWorkspaceId otherScannerName otherScannerVersion other.plain_toJson
  rw [Json.stableText_eq_iff plain otherPlain, ← Json.sorted_eq_iff plain otherPlain]
  constructor
  · intro same
    have told := tells_sorted workspaceId scannerName scannerVersion snapshot
    have otherTold := tells_sorted otherWorkspaceId otherScannerName otherScannerVersion other
    rw [same] at told
    have workspaces := told.workspaceId.symm.trans otherTold.workspaceId
    have names := told.scannerName.symm.trans otherTold.scannerName
    have versions := told.scannerVersion.symm.trans otherTold.scannerVersion
    have snapshots := told.snapshot.symm.trans otherTold.snapshot
    have textInjective : Function.Injective Json.text := fun _ _ equal => Json.text.inj equal
    exact ⟨textInjective (Option.some.inj workspaces), textInjective (Option.some.inj names),
      Option.map_injective textInjective versions,
      Snapshot.sorted_toJson_inj.mp (Option.some.inj snapshots)⟩
  · rintro ⟨rfl, rfl, rfl, rfl⟩
    rfl

end Digest

/-! ## Submissions -/

namespace Submission

def hashedBytes (submission : Submission) : List UInt8 :=
  Text.Utf8.encode (Json.stableText (Digest.payload submission.workspaceId submission.scanner.name
    submission.scanner.version submission.snapshot.toJson))

theorem payloadHash_of_prepare {limits : Limits} {request : Request} {submission : Submission}
    (prepared : prepare limits request = .ok submission) :
    submission.payloadHash = Digest.ofBytes submission.hashedBytes :=
  (prepared_of_prepare prepared).payloadHash

theorem hashedBytes_inj {left right : Submission} :
    left.hashedBytes = right.hashedBytes ↔
      left.workspaceId = right.workspaceId ∧ left.scanner.name = right.scanner.name ∧
        left.scanner.version = right.scanner.version ∧ left.snapshot = right.snapshot := by
  rw [hashedBytes, hashedBytes, Text.Utf8.encode_inj, Digest.stableText_payload_inj]

/-- The stable text identifies a value up to the order of fields, and gives it back. So requests
have the same bytes to hash exactly if they agree, in normal form, in all that is hashed. -/
theorem stableText_identifies :
    (∀ left right, Json.Plain left → Json.Plain right →
      (left.stableText = right.stableText ↔ Json.Same left right)) ∧
    (∀ value, Json.Plain value →
      ∃ read, Json.parse value.stableText = .ok read ∧ Json.Same value read) ∧
    ∀ limits request submission otherLimits otherRequest other,
      prepare limits request = .ok submission → prepare otherLimits otherRequest = .ok other →
      submission.payloadHash = Digest.ofBytes submission.hashedBytes ∧
      other.payloadHash = Digest.ofBytes other.hashedBytes ∧
      (submission.hashedBytes = other.hashedBytes ↔
        normalizeWorkspaceId limits request.workspaceId =
          normalizeWorkspaceId otherLimits otherRequest.workspaceId ∧
        normalizeScannerName limits request.scanner.name =
          normalizeScannerName otherLimits otherRequest.scanner.name ∧
        normalizeScannerVersion limits request.scanner.version =
          normalizeScannerVersion otherLimits otherRequest.scanner.version ∧
        request.snapshot.canonical = otherRequest.snapshot.canonical) := by
  refine ⟨fun _ _ => Json.stableText_eq_iff, fun value plain => ?_, ?_⟩
  · have twice := (Json.sorted_eq_iff plain plain.sorted).mp (Json.sorted_sorted plain).symm
    exact ⟨value.sorted, Json.parse_stableText plain, twice⟩
  · intro limits request submission otherLimits otherRequest other prepared otherPrepared
    have made := prepared_of_prepare prepared
    have otherMade := prepared_of_prepare otherPrepared
    have parts := @hashedBytes_inj submission other
    rw [made.snapshot, otherMade.snapshot] at parts
    rw [made.workspaceId, otherMade.workspaceId, made.scannerName, otherMade.scannerName,
      made.scannerVersion, otherMade.scannerVersion, Except.ok.injEq, Except.ok.injEq,
      Except.ok.injEq]
    exact ⟨payloadHash_of_prepare prepared, payloadHash_of_prepare otherPrepared, parts⟩

def nestedValue : Json :=
  .record [
    ("b", .list [.record [("y", .null), ("x\"\n", .bool true)], .list []]),
    ("a", .text "\\é😀\x01"),
    ("", .int (-20))]

def rearrangedValue : Json :=
  .record [
    ("", .int (-20)),
    ("b", .list [.record [("x\"\n", .bool true), ("y", .null)], .list []]),
    ("a", .text "\\é😀\x01")]

def scatteredRequest : Request where
  key := "first"
  workspaceId := " team/repo "
  trigger := .manual
  scanner := ⟨"scanner", some " "⟩
  origin := none
  snapshot := ⟨"angular.json", [], [], [], [⟨"b", "a", ["b.ts", "a.ts"]⟩, ⟨"a", "b", []⟩]⟩

def tidyRequest : Request where
  key := "second"
  workspaceId := "team/repo"
  trigger := .pipeline
  scanner := ⟨"scanner ", none⟩
  origin := none
  snapshot := ⟨"angular.json", [], [], [],
    [⟨"a", "b", []⟩, ⟨"b", "a", ["a.ts"]⟩, ⟨"b", "a", ["b.ts"]⟩]⟩

theorem stableText_identifies_rearranged :
    Json.Plain nestedValue ∧ Json.Plain rearrangedValue ∧
    Json.Same nestedValue rearrangedValue ∧
    (∃ read, Json.parse nestedValue.stableText = .ok read ∧ Json.Same nestedValue read) ∧
    ∃ submission other,
      prepare .standard scatteredRequest = .ok submission ∧
      prepare .standard tidyRequest = .ok other ∧
      submission.hashedBytes = other.hashedBytes ∧ submission.payloadHash = other.payloadHash := by
  rcases stableText_identifies with ⟨texts, read, bytes⟩
  have plain : Json.Plain nestedValue := by simp [nestedValue, Json.DistinctNames]
  have rearranged : Json.Plain rearrangedValue := by simp [rearrangedValue, Json.DistinctNames]
  have same := (texts nestedValue rearrangedValue plain rearranged).mp rfl
  have prepared : ∃ submission, prepare .standard scatteredRequest = .ok submission := ⟨_, rfl⟩
  have otherPrepared : ∃ other, prepare .standard tidyRequest = .ok other := ⟨_, rfl⟩
  rcases prepared with ⟨submission, prepared⟩
  rcases otherPrepared with ⟨other, otherPrepared⟩
  rcases bytes _ _ _ _ _ _ prepared otherPrepared with ⟨hash, otherHash, agree⟩
  have hashed : submission.hashedBytes = other.hashedBytes :=
    agree.mpr ⟨rfl, rfl, rfl, by decide⟩
  exact ⟨plain, rearranged, same, read nestedValue plain, submission, other, prepared,
    otherPrepared, hashed, by rw [hash, otherHash, hashed]⟩

end Submission

end WorkspaceGraph
