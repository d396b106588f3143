import WorkspaceGraph.Proofs.Interleaving.Replay
import WorkspaceGraph.Proofs.Snapshot.Rearranged
import WorkspaceGraph.Proofs.Submission.Fingerprint
import WorkspaceGraph.Proofs.Text.Blank
/-!
Variants of a request. Blanks around its names and the order of the lists in its snapshot make no
difference to what is submitted, except that the order of entries with the same name or key is kept.
-/

namespace WorkspaceGraph

/-- The other request is the same but for blanks around its names and the order of the lists in its
snapshot. -/
structure Request.Variant (request other : Request) : Prop where
  key : Text.Padded request.key other.key
  workspaceId : Text.Padded request.workspaceId other.workspaceId
  scannerName : Text.Padded request.scanner.name other.scanner.name
  scannerVersion : Option.Rel Text.Padded request.scanner.version other.scanner.version
  trigger : request.trigger = other.trigger
  origin : request.origin = other.origin
  snapshot : request.snapshot.Rearranged other.snapshot

namespace Submission

/-! ## Normal forms -/

theorem normalizeRequired_padded {value other : String} (padded : Text.Padded value other)
    (field : String) (limit : Int) :
    normalizeRequired field limit other = normalizeRequired field limit value := by
  rw [normalizeRequired, normalizeRequired, padded.trim_eq]

theorem trimmed?_padded {version other : Option String}
    (padded : Option.Rel Text.Padded version other) :
    other.bind Text.trimmed? = version.bind Text.trimmed? := by
  cases padded with
  | none => rfl
  | some padded =>
      simp only [Option.bind_some, Text.trimmed?, padded.trim_eq]

variable {limits : Limits} {request other : Request}

/-- The variant is refused for the same reason, or it is the same submission but for the
snapshot. -/
theorem prepare_variant (variant : request.Variant other) :
    prepare limits other = (prepare limits request).map fun submission =>
      { submission with
        snapshot := other.snapshot.canonical
        payloadHash := fingerprint submission.workspaceId submission.scanner
          other.snapshot.canonical } := by
  have key : normalizeKey limits other.key = normalizeKey limits request.key :=
    normalizeRequired_padded variant.key _ _
  have workspaceId : normalizeWorkspaceId limits other.workspaceId =
      normalizeWorkspaceId limits request.workspaceId :=
    normalizeRequired_padded variant.workspaceId _ _
  have name : normalizeScannerName limits other.scanner.name =
      normalizeScannerName limits request.scanner.name :=
    normalizeRequired_padded variant.scannerName _ _
  have version : normalizeScannerVersion limits other.scanner.version =
      normalizeScannerVersion limits request.scanner.version := by
    rw [normalizeScannerVersion, normalizeScannerVersion, trimmed?_padded variant.scannerVersion]
  rw [prepare, prepare, key, workspaceId, name, version, ← variant.trigger, ← variant.origin]
  cases normalizeWorkspaceId limits request.workspaceId with
  | error error => rfl
  | ok workspaceId =>
  cases normalizeScannerName limits request.scanner.name with
  | error error => rfl
  | ok name =>
  cases normalizeScannerVersion limits request.scanner.version with
  | error error => rfl
  | ok version =>
  cases normalizeKey limits request.key with
  | error error => rfl
  | ok key => rfl

end Submission

/-! ## Replays -/

/-- Whoever submits the later submission by the request is given the answer again, in one go or by a
worker, and nothing is changed by that. -/
structure System.Replays (system : System) (receipt : Receipt) (limits : Limits)
    (request : Request) (later : Submission) : Prop where
  ingested : ∀ now misses log, misses ≤ 1 → ∃ faults noted,
    (Service.ingest limits now request).outcome ⟨system.store, .missing misses, log⟩ =
      (.ok { receipt with deduplicated := true }, ⟨system.store, faults, noted⟩)
  worked : ∀ number worker now age, system.workers number = some worker → worker.Acquires →
    worker.submission = later →
    let next := system.step (.turn number ⟨now, .missing 0, age⟩)
    next.store = system.store ∧ next.workers number =
      some { worker with stage := .answered (.ok { receipt with deduplicated := true }) }

/-- However the earlier submission came to be answered with a version, and whatever happened then,
the later one is a replay of it. -/
def Submission.ReplayedBy (earlier : Submission) (limits : Limits) (request : Request)
    (later : Submission) : Prop :=
  ∀ events number worker receipt, (System.after events).workers number = some worker →
    worker.submission = earlier → worker.stage = .answered (.ok receipt) →
    receipt.status = .succeeded →
    ∀ more, ((System.after events).run more).Replays receipt limits request later

theorem System.Evident.replays {system : System} {earlier later : Submission} {receipt : Receipt}
    {limits : Limits} {request : Request} (evident : system.Evident earlier receipt)
    (sound : system.store.Sound) (succeeded : receipt.status = .succeeded)
    (prepared : Submission.prepare limits request = .ok later) (key : later.key = earlier.key)
    (payloadHash : later.payloadHash = earlier.payloadHash) :
    system.Replays receipt limits request later := by
  rcases receipt.linkage_of_succeeded succeeded with ⟨linkage, names⟩
  have again : receipt.replay earlier later = .ok { receipt with deduplicated := true } := by
    rw [Receipt.replay, if_pos payloadHash]
  constructor
  · intro now misses log few
    rcases evident.runWithKey? sound key with ⟨run, stored, attests⟩
    rw [← again]
    exact Service.outcome_ingest prepared now few log stored attests names
  · intro number worker now age found acquires isLater
    subst isLater
    rw [← again]
    exact evident.seen sound names found acquires key now age

theorem Submission.replayedBy {earlier later : Submission} {limits : Limits} {request : Request}
    (prepared : prepare limits request = .ok later) (key : later.key = earlier.key)
    (payloadHash : later.payloadHash = earlier.payloadHash) :
    earlier.ReplayedBy limits request later := by
  intro events number worker receipt found isOf answered succeeded more
  have sound := System.sound_after events
  have evident : (System.after events).Evident earlier receipt :=
    isOf ▸ System.attested_after events number worker receipt found answered succeeded
  exact (evident.run sound more).replays (System.sound_run sound more) succeeded prepared key
    payloadHash

/-! ## Variants -/

namespace Submission

/-- A variant is refused for the same reason as the request, or it is accepted under the same names.
What is hashed is the same exactly if the entries that tie come in the same order, as they do where
no name or key is repeated; and then each of the two is a replay of the other. -/
theorem variant_replayed {request other : Request} (variant : request.Variant other)
    (limits : Limits) :
    (∀ error, prepare limits request = .error error ↔ prepare limits other = .error error) ∧
    ∀ submission, prepare limits request = .ok submission →
      ∃ again, prepare limits other = .ok again ∧
        again.key = submission.key ∧ again.workspaceId = submission.workspaceId ∧
        again.scanner = submission.scanner ∧
        (again.hashedBytes = submission.hashedBytes ↔
          request.snapshot.SameTies other.snapshot) ∧
        (request.snapshot.Unambiguous → request.snapshot.SameTies other.snapshot) ∧
        (request.snapshot.SameTies other.snapshot → again.payloadHash = submission.payloadHash ∧
          submission.ReplayedBy limits other again ∧
          again.ReplayedBy limits request submission) := by
  have alike := @prepare_variant limits request other variant
  constructor
  · intro error
    rw [alike]
    cases prepare limits request with
    | error reason => exact .rfl
    | ok submission => exact ⟨nofun, nofun⟩
  · intro submission prepared
    rw [prepared] at alike
    have snapshot := (prepared_of_prepare prepared).snapshot
    refine ⟨_, alike, rfl, rfl, rfl, ?_, variant.snapshot.sameTies, ?_⟩
    · rw [hashedBytes_inj, ← variant.snapshot.sameCanonical_iff, snapshot]
      simp [eq_comm]
    · intro ties
      have canonical := variant.snapshot.sameCanonical_iff.mpr ties
      have payloadHash : fingerprint submission.workspaceId submission.scanner
          other.snapshot.canonical = submission.payloadHash := by
        rw [(prepared_of_prepare prepared).payloadHash, snapshot, canonical]
      exact ⟨payloadHash, replayedBy alike rfl payloadHash,
        replayedBy prepared rfl payloadHash.symm⟩

def looseRequest : Request where
  key := "first"
  workspaceId := "team/repo"
  trigger := .manual
  scanner := ⟨"scanner", some "1.0"⟩
  origin := none
  snapshot := .scattered

def reorderedRequest : Request where
  key := " first "
  workspaceId := "\tteam/repo"
  trigger := .manual
  scanner := ⟨"scanner\n", some " 1.0"⟩
  origin := none
  snapshot :=
    { Snapshot.scattered with
      projects := [
        ⟨"a", .application, "a", none, "angular.json", ["a", "b", "b"]⟩,
        ⟨"b", .library, "b", none, "angular.json", ["a"]⟩]
      edges := [⟨"a", "b", ["a/x.ts"]⟩, ⟨"a", "a", ["a/z.ts"]⟩, ⟨"b", "a", []⟩,
        ⟨"a", "b", ["a/y.ts"]⟩] }

theorem variant_reorderedRequest : looseRequest.Variant reorderedRequest where
  key := .of_blank [' '] [' '] rfl (by decide)
  workspaceId := .of_blank ['\t'] [] rfl (by decide)
  scannerName := .of_blank [] ['\n'] rfl (by decide)
  scannerVersion := .some (.of_blank [' '] [] rfl (by decide))
  trigger := rfl
  origin := rfl
  snapshot := {
    configPath := rfl
    projects := by
      refine ⟨_, .cons (.intro ["a"] (by decide)) (.cons (.intro ["a", "b", "b"] ?_) .nil), ?_⟩
      · decide
      · decide
    libraries := .refl _
    components := by
      refine ⟨_, .cons (.intro ["b", "a"] ?_) (.cons (.intro ["b"] ?_) .nil), .refl _⟩
      · decide
      · decide
    edges := by
      refine ⟨_, .cons (.intro [] (.refl _)) (.cons (.intro ["a/y.ts"] (.refl _))
        (.cons (.intro ["a/z.ts"] (.refl _)) (.cons (.intro ["a/x.ts"] (.refl _)) .nil))), ?_⟩
      decide }

theorem variant_replayed_reorderedRequest : looseRequest.Variant reorderedRequest ∧
    ∃ submission again, prepare .standard looseRequest = .ok submission ∧
      prepare .standard reorderedRequest = .ok again ∧
      again.payloadHash = submission.payloadHash ∧
      submission.ReplayedBy .standard reorderedRequest again ∧
      again.ReplayedBy .standard looseRequest submission := by
  have told := variant_replayed variant_reorderedRequest .standard
  have prepared : ∃ submission, prepare .standard looseRequest = .ok submission := ⟨_, rfl⟩
  rcases prepared with ⟨submission, prepared⟩
  rcases told.2 submission prepared with ⟨again, preparedAgain, _, _, _, _, ties, replayed⟩
  have once : looseRequest.snapshot.Unambiguous := ⟨by decide, by decide, by decide⟩
  exact ⟨variant_reorderedRequest, submission, again, prepared, preparedAgain, replayed (ties once)⟩

/-! ## Repeated names -/

def twinRequest (first second : String) : Request where
  key := "key"
  workspaceId := "team/repo"
  trigger := .manual
  scanner := ⟨"scanner", none⟩
  origin := none
  snapshot :=
    { workspaceConfigPath := "angular.json"
      projects := [
        ⟨"a", .application, first, none, "angular.json", []⟩,
        ⟨"a", .application, second, none, "angular.json", []⟩]
      libraries := []
      components := []
      edges := [] }

def twinSubmission (first second payloadHash : String) : Submission where
  key := "key"
  workspaceId := "team/repo"
  trigger := .manual
  scanner := ⟨"scanner", none⟩
  origin := none
  snapshot := (twinRequest first second).snapshot
  payloadHash := payloadHash

theorem prepare_twinRequest :
    prepare .standard (twinRequest "x" "y") = .ok (twinSubmission "x" "y" "8e0ebf9c") ∧
      prepare .standard (twinRequest "y" "x") = .ok (twinSubmission "y" "x" "0818d182") := by
  have fingerprints :
      fingerprint "team/repo" ⟨"scanner", none⟩ (twinRequest "x" "y").snapshot = "8e0ebf9c" ∧
        fingerprint "team/repo" ⟨"scanner", none⟩ (twinRequest "y" "x").snapshot = "0818d182" := by
    simp only [fingerprint, Digest.ofPayload, Text.Utf8.encode, Json.stableText, Json.render,
      String.toList_ofList]
    decide +kernel
  constructor
  · rw [← fingerprints.1]
    rfl
  · rw [← fingerprints.2]
    rfl

/-- The twins stay in the order in which they come, so the request with the other order is not a
replay: it is refused. -/
theorem refused_twinRequest : (twinRequest "x" "y").Variant (twinRequest "y" "x") ∧
    ∃ submission again receipt, prepare .standard (twinRequest "x" "y") = .ok submission ∧
      prepare .standard (twinRequest "y" "x") = .ok again ∧
      again.payloadHash ≠ submission.payloadHash ∧
      let system :=
        System.after [.arrival 0 .standard submission, .turn 0 .calm, .turn 0 .calm]
      system.workers 0 = some ⟨.standard, submission, .answered (.ok receipt)⟩ ∧
      receipt.status = .succeeded ∧
      ∀ now log, ∃ faults noted,
        (Service.ingest .standard now (twinRequest "y" "x")).outcome
            ⟨system.store, .missing 0, log⟩ =
          (.error (.ingestion .keyReused), ⟨system.store, faults, noted⟩) := by
  have variant : (twinRequest "x" "y").Variant (twinRequest "y" "x") := by
    refine ⟨.refl _, .refl _, .refl _, .none, rfl, rfl, ?_⟩
    exact .of_perm rfl (.swap ..) (.refl _) (.refl _) (.refl _)
  have answered : (System.after [.arrival 0 .standard (twinSubmission "x" "y" "8e0ebf9c"),
      .turn 0 .calm, .turn 0 .calm]).workers 0 =
      some ⟨.standard, twinSubmission "x" "y" "8e0ebf9c",
        .answered (.ok ⟨.issued 0, false, some ⟨.issued 1, 1⟩, 1⟩)⟩ := rfl
  have different : (twinSubmission "y" "x" "0818d182").payloadHash ≠
      (twinSubmission "x" "y" "8e0ebf9c").payloadHash := by
    decide
  refine ⟨variant, _, _, _, prepare_twinRequest.1, prepare_twinRequest.2, different, answered,
    rfl, ?_⟩
  intro now log
  rcases System.attested_after _ 0 _ _ answered rfl rfl with ⟨run, member, attests⟩
  have stored := (System.sound_after _).runWithKey?_of_mem member
  rw [attests.key] at stored
  have outcome := Service.outcome_ingest prepare_twinRequest.2 now (Nat.zero_le 1) log stored
    attests rfl
  rw [Receipt.replay, if_neg different] at outcome
  exact outcome

end Submission

end WorkspaceGraph
