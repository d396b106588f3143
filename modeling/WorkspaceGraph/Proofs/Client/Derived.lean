import WorkspaceGraph.CommandLine.IngestCommand
import WorkspaceGraph.Proofs.Result
import WorkspaceGraph.Proofs.Text.Trimmed
import WorkspaceGraph.Submission.Basic
/-!
Keys and workspaces that the command makes of what a build tells of itself. The client cuts them to
size and the service checks them on its own; whatever the build says, the check is passed.
-/

namespace WorkspaceGraph

namespace Submission

variable {limits : Limits} {value : String}

theorem normalizeRequired_eq_ok {field : String} {limit : Int} (notEmpty : Text.trim value ≠ "")
    (within : (Text.trim value).length ≤ limit) :
    normalizeRequired field limit value = .ok (Text.trim value) := by
  rw [normalizeRequired]
  rw [if_neg (by rwa [String.isEmpty_iff]), if_neg (Int.not_lt.mpr within)]

end Submission

namespace Client

/-! ## Keys -/

structure IsKey (key : String) : Prop where
  notEmpty : key ≠ ""
  within : key.length ≤ keyLimit
  spelled : ∀ char ∈ key.toList, isKeyChar char

theorem isBlank_of_isKeyChar {char : Char} (spelled : isKeyChar char = true) :
    Text.isBlank char = false := by
  have ascii : char.toNat < 128 := by
    simp only [isKeyChar, Bool.or_eq_true, Bool.and_eq_true, decide_eq_true_eq, beq_iff_eq]
      at spelled
    rcases spelled with (((((⟨-, below⟩ | ⟨-, below⟩) | ⟨-, below⟩) | rfl) | rfl) | rfl) | rfl
    · exact Text.isAscii_of_le below (by decide)
    · exact Text.isAscii_of_le below (by decide)
    · exact Text.isAscii_of_le below (by decide)
    all_goals decide
  revert spelled
  refine Text.forall_ascii char ascii ?_
  decide +kernel

theorem exists_isKey {text : String} (notEmpty : text ≠ "") :
    ∃ key, keyOfText? text = some key ∧ IsKey key := by
  rw [keyOfText?, if_neg (by rwa [String.isEmpty_iff])]
  refine ⟨_, rfl, ?_, ?_, fun char member => ?_⟩
  · rw [Ne, ← String.toList_eq_nil_iff, String.toList_ofList, List.take_eq_nil_iff, not_or]
    exact ⟨by decide, by simpa using notEmpty⟩
  · rw [String.length_ofList]
    exact List.length_take_le ..
  · rw [String.toList_ofList] at member
    rcases List.mem_map.mp (List.mem_of_mem_take member) with ⟨given, -, rfl⟩
    split
    · assumption
    · decide

theorem IsKey.isTrimmed {key : String} (isKey : IsKey key) : Text.IsTrimmed key :=
  Text.isTrimmed_of_solid isKey.notEmpty fun char member =>
    isBlank_of_isKeyChar (isKey.spelled char member)

theorem IsKey.normalizeKey_eq {key : String} (isKey : IsKey key) :
    Submission.normalizeKey .standard key = .ok key := by
  have trimmed := isKey.isTrimmed.trimmed
  have within : (key.length : Int) ≤ keyLimit := Int.ofNat_le.mpr isKey.within
  rw [Submission.normalizeKey, Submission.normalizeRequired_eq_ok, trimmed]
  · rw [trimmed]
    exact isKey.notEmpty
  · rw [trimmed]
    exact within

theorem nonEmpty_ne {value : Option String} {text : String} (given : nonEmpty value = some text) :
    text ≠ "" := by
  rintro rfl
  unfold nonEmpty at given
  split at given
  · cases given
  · rename_i notEmpty
    exact notEmpty given

theorem exists_deriveKey (explicit : Option String) (build : Build) :
    ∃ key, deriveKey? explicit build = some key ∧ IsKey key := by
  refine exists_isKey ?_
  cases given : nonEmpty explicit with
  | some text => exact nonEmpty_ne given
  | none =>
      rw [Option.getD_none, Ne, ← String.toList_eq_nil_iff]
      simp [Build.keyText]

/-! ## Workspaces -/

/-- A value as the command passes it on: none, or a trimmed text. -/
def IsPassed (value : Option String) : Prop := ∀ text ∈ value, Text.IsTrimmed text

theorem isPassed_bind_trimmed? (value : Option String) : IsPassed (value.bind Text.trimmed?) := by
  intro text given
  rcases Option.bind_eq_some_iff.mp given with ⟨_, -, trimmed⟩
  exact Text.isTrimmed_of_trimmed? trimmed

theorem IsPassed.getD_nonEmpty {value : Option String} (passed : IsPassed value) {default : String}
    (trimmed : Text.IsTrimmed default) : Text.IsTrimmed ((nonEmpty value).getD default) := by
  unfold nonEmpty
  split
  · exact trimmed
  · cases value with
    | none => exact trimmed
    | some text => exact passed text rfl

def wholeWorkspaceId (explicit teamProject repositoryName : Option String) : String :=
  (nonEmpty explicit).getD
    ((nonEmpty teamProject).getD "local" ++ "/" ++ (nonEmpty repositoryName).getD "workspace")

theorem isTrimmed_wholeWorkspaceId {explicit teamProject repositoryName : Option String}
    (passed : IsPassed explicit) (teamPassed : IsPassed teamProject)
    (repositoryPassed : IsPassed repositoryName) :
    Text.IsTrimmed (wholeWorkspaceId explicit teamProject repositoryName) := by
  have localTrimmed : Text.IsTrimmed "local" := ⟨by decide, by decide⟩
  have workspaceTrimmed : Text.IsTrimmed "workspace" := ⟨by decide, by decide⟩
  exact passed.getD_nonEmpty ((teamPassed.getD_nonEmpty localTrimmed).append
    (repositoryPassed.getD_nonEmpty workspaceTrimmed) "/")

theorem length_takeChars_le (count : Nat) (text : String) :
    (Text.takeChars count text).length ≤ count := by
  rw [Text.takeChars, String.length_ofList]
  exact List.length_take_le ..

/-- The service accepts what is left of a trimmed text after the cut, and takes off no more than
the blanks that the cut has left at its end. -/
theorem normalizeWorkspaceId_takeChars {whole : String} (trimmed : Text.IsTrimmed whole) :
    let cut := Text.takeChars workspaceLimit whole
    ∃ accepted, Submission.normalizeWorkspaceId .standard cut = .ok accepted ∧
      (∃ blanks : List Char, (∀ char ∈ blanks, Text.isBlank char) ∧
        cut.toList = accepted.toList ++ blanks) ∧
      (whole.length ≤ workspaceLimit → accepted = cut) := by
  intro cut
  have room : 0 < workspaceLimit := by decide
  have ⟨notEmpty, blanks, areBlank, spelled⟩ := trimmed.trim_takeChars room
  have shorter : (Text.trim cut).length ≤ cut.length := by
    rw [← String.length_toList, ← String.length_toList, spelled, List.length_append]
    exact Nat.le_add_right ..
  have within : (Text.trim cut).length ≤ (workspaceLimit : Int) :=
    Int.ofNat_le.mpr (shorter.trans (length_takeChars_le ..))
  refine ⟨Text.trim cut, Submission.normalizeRequired_eq_ok notEmpty within,
    ⟨blanks, areBlank, spelled⟩, fun short => ?_⟩
  have uncut : cut = whole := Text.IsTrimmed.takeChars_eq short
  rw [uncut, trimmed.trimmed]

end Client

namespace CommandLine.IngestCommand

open Client (IsPassed)

/-! ## The command -/

structure IsTrimmed (command : IngestCommand) : Prop where
  key : IsPassed command.key
  reason : IsPassed command.build.reason
  id : IsPassed command.build.id
  attempt : IsPassed command.build.attempt
  workspaceId : IsPassed command.workspaceId
  teamProject : IsPassed command.teamProject
  repositoryName : IsPassed command.repositoryName

theorem isTrimmed_of_ofArguments {environment : String → Option String} {tree : FileTree}
    {directory : String} {arguments : Arguments} {command : IngestCommand}
    (read : ofArguments environment tree directory arguments = .ok command) :
    command.IsTrimmed := by
  rw [ofArguments] at read
  dsimp only at read
  split at read
  · cases read
  · split at read
    · cases read
    · obtain ⟨path, -, read⟩ := bind_eq_ok.mp read
      obtain ⟨trigger, -, read⟩ := bind_eq_ok.mp read
      obtain ⟨attempts, -, read⟩ := bind_eq_ok.mp read
      obtain ⟨timeout, -, read⟩ := bind_eq_ok.mp read
      obtain ⟨initialPause, -, read⟩ := bind_eq_ok.mp read
      obtain ⟨greatestPause, -, read⟩ := bind_eq_ok.mp read
      cases read
      constructor <;> exact Client.isPassed_bind_trimmed? _

/-- A key is made of all that a build may tell, and the service takes it as it is. The service takes
the workspace's id as well; only blanks are taken off its end, and only where it was cut. -/
theorem derived_accepted (command : IngestCommand) (trimmed : command.IsTrimmed) :
    (∃ key, Client.deriveKey? command.key command.build = some key ∧
      Submission.normalizeKey .standard key = .ok key) ∧
    ∃ accepted, Submission.normalizeWorkspaceId .standard command.workspace = .ok accepted ∧
      (∃ blanks : List Char, (∀ char ∈ blanks, Text.isBlank char) ∧
        command.workspace.toList = accepted.toList ++ blanks) ∧
      ((Client.wholeWorkspaceId command.workspaceId command.teamProject
        command.repositoryName).length ≤ Client.workspaceLimit → accepted = command.workspace) := by
  refine ⟨?_, Client.normalizeWorkspaceId_takeChars (Client.isTrimmed_wholeWorkspaceId
    trimmed.workspaceId trimmed.teamProject trimmed.repositoryName)⟩
  rcases Client.exists_deriveKey command.key command.build with ⟨key, derived, isKey⟩
  exact ⟨key, derived, isKey.normalizeKey_eq⟩

/-- The environment of a build that writes its reason with a letter beyond ASCII. -/
def wordyEnvironment (name : String) : Option String :=
  [("INGEST_URL", "http://host"), ("BUILD_REASON", " \u0130ndividual CI "),
    ("BUILD_BUILDID", "\n"), ("SYSTEM_TEAMPROJECT", "my team ")].lookup name

def wordy : IngestCommand where
  url := "http://host"
  token := none
  snapshotPath := "scan-snapshot.json"
  key := none
  build := ⟨some "\u0130ndividual CI", none, none⟩
  workspaceId := none
  teamProject := some "my team"
  repositoryName := none
  trigger := .pipeline
  branch := none
  commitSha := none
  runId := none
  scannerName := "workspace-scanner"
  scannerVersion := none
  attempts := 4
  timeout := 30000
  initialPause := 2000
  greatestPause := 15000

/-- In its small form the letter becomes two, of which the second one is written as a hyphen. -/
theorem derived_accepted_wordy :
    ofArguments wordyEnvironment (.directory []) "/w" ⟨[], []⟩ = .ok wordy ∧ wordy.IsTrimmed ∧
    Client.deriveKey? wordy.key wordy.build = some "ci-i-ndividual-ci-local-attempt-1" ∧
    Submission.normalizeKey .standard "ci-i-ndividual-ci-local-attempt-1" =
      .ok "ci-i-ndividual-ci-local-attempt-1" ∧
    Submission.normalizeWorkspaceId .standard wordy.workspace = .ok "my team/workspace" := by
  have read : ofArguments wordyEnvironment (.directory []) "/w" ⟨[], []⟩ = .ok wordy := by
    decide +kernel
  have trimmed := isTrimmed_of_ofArguments read
  rcases derived_accepted wordy trimmed with ⟨⟨key, derived, kept⟩, accepted, taken, -, uncut⟩
  have key_eq : key = "ci-i-ndividual-ci-local-attempt-1" :=
    Option.some.inj (derived.symm.trans (by decide +kernel))
  subst key_eq
  rw [uncut (by decide +kernel)] at taken
  exact ⟨read, trimmed, derived, kept, taken⟩

end CommandLine.IngestCommand

end WorkspaceGraph
