import WorkspaceGraph.Proofs.Path.Parent
import WorkspaceGraph.Proofs.Workspace.Survey
/-!
Projects by reference. A project whose config names no root lives in the directory of the config.
The directory is where the resolved path says. What it is called in the workspace is cut off the
reference, so that it is called as the reference has it, and by no name at all if nothing is left.
-/

namespace WorkspaceGraph.Project

/-! ## References -/

theorem getLast?_referencePath (reference : String) :
    (referencePath reference).toList.getLast? = some 'n' := by
  rw [referencePath, Path.relativeForm, String.toList_ofList]
  refine Path.getLast?_relativeFormChars ?_ (by decide) (by decide) (by decide)
  split
  · rename_i cut
    have ending : ".json".toList = ".jso".toList ++ ['n'] := by decide
    rcases Option.isSome_iff_exists.mp cut with ⟨rest, cut⟩
    rw [withoutEnding?_eq_some_iff.mp cut, String.toList_append, ending, ← List.append_assoc,
      List.getLast?_concat]
  · have ending : configName.toList = "project.jso".toList ++ ['n'] := by decide
    rw [String.toList_append, ending, ← List.append_assoc, List.getLast?_concat]

def referredPath (root reference : String) : String := Path.resolve root [referencePath reference]

def configDirectory (root reference : String) : String :=
  Path.absoluteForm (Path.directory (referredPath root reference))

structure Refers (tree : FileTree) (root reference : String) (fields : List (String × Json)) :
    Prop where
  rooted : ∃ rootNames, Path.Rooted root.toList rootNames
  workspace : tree.isDirectory root = true
  inside : Path.isWithin (referredPath root reference) root = true
  named : Path.baseName (referredPath root reference) = configName
  parsed : ∃ text, tree.readText? (referredPath root reference) = some text ∧
    Json.parse text = .ok (.record fields)
  rootless : ∀ declared, (Json.record fields).field? "root" ≠ some (.text declared)

def Bare (reference : String) : Prop :=
  referencePath reference = configName ∨ referencePath reference = "/" ++ configName

/-! ## Where a reference leads -/

variable {tree : FileTree} {root reference name config : String} {fields : List (String × Json)}

theorem exists_last_referencePath (reference : String) :
    ∃ last, Path.IsName last ∧ ((referencePath reference).toList = last ∨
      ∃ front, (referencePath reference).toList = front ++ '/' :: last) := by
  have ends := getLast?_referencePath reference
  have isName : ∀ last, '/' ∉ last → last.getLast? = some 'n' → Path.IsName last := by
    intro last noSlash ends
    refine ⟨?_, ?_, ?_, noSlash⟩ <;> rintro rfl <;> exact absurd ends (by decide)
  rcases Path.noSlash_or_exists_last (referencePath reference).toList with
    noSlash | ⟨front, last, whole, noSlash⟩
  · exact ⟨_, isName _ noSlash ends, .inl rfl⟩
  · refine ⟨last, isName last noSlash ?_, .inr ⟨front, whole⟩⟩
    rw [whole, List.getLast?_append] at ends
    cases last with
    | nil => simp at ends
    | cons char more => simpa using ends

namespace Refers

variable (refers : Refers tree root reference fields)
include refers

theorem absolute : root.toList.head? = some '/' := by
  have ⟨_, rooted⟩ := refers.rooted
  exact rooted.head?

theorem notRoot : referredPath root reference ≠ root := by
  have ⟨text, read, _⟩ := refers.parsed
  have ⟨content, found⟩ := find_of_readText? read
  have workspace := refers.workspace
  intro same
  rw [FileTree.isDirectory, ← same, found] at workspace
  cases workspace

theorem shape : ∃ rest,
    (referredPath root reference).toList = Path.dropSlashes root.toList ++ '/' :: rest :=
  (Path.isWithin_iff.mp refers.inside).resolve_left refers.notRoot

theorem forward : '\\' ∉ root.toList := by
  have ⟨rest, shape⟩ := refers.shape
  intro member
  have inside : '\\' ∈ (referredPath root reference).toList := by
    rw [shape]
    exact List.mem_append_left _ (Path.mem_dropSlashes member (by decide))
  rw [referredPath, Path.toList_resolve _ refers.absolute] at inside
  exact Path.not_mem_absoluteFormChars _ inside

theorem directory_inside :
    Path.isWithin (configDirectory root reference) (Path.absoluteForm root) = true := by
  have ⟨rest, shape⟩ := refers.shape
  have trimmed := Path.trimmed_absoluteForm root
  rw [← Path.dropSlashes_absoluteForm refers.forward] at shape
  refine Path.isWithin_absoluteForm trimmed ?_ (trimmed.isWithin_directory shape)
  rw [Path.absoluteForm, String.toList_ofList]
  exact Path.not_mem_absoluteFormChars _

/-- If anything comes before the config's name, it leads to the directory of the config. -/
theorem exists_home (notBare : ¬Bare reference) :
    ∃ home, home.toList ≠ [] ∧ referencePath reference = home ++ "/" ++ configName ∧
      Path.resolve root [home] = configDirectory root reference := by
  have ⟨rootNames, rooted⟩ := refers.rooted
  have forward := refers.forward
  have slash : "/".toList = ['/'] := by decide
  have ⟨last, isName, whole⟩ := exists_last_referencePath reference
  have normal := Path.normal_resolve refers.absolute forward (not_mem_referencePath reference)
  have named : ∀ names, Path.namesOf (Path.joinChars root.toList
      (referencePath reference).toList) = names ++ [last] → last = configName.toList := by
    intro names names_eq
    rw [names_eq] at normal
    rw [← normal.toList_baseName]
    exact congrArg String.toList refers.named
  rcases whole with whole | ⟨front, whole⟩
  · have joined := (rooted.joinChars isName).namesOf_eq
    rw [← whole] at joined
    have same := named _ (by rw [joined, whole])
    exact absurd (.inl (String.toList_injective (whole.trans same))) notBare
  · by_cases alone : front = []
    · have joined : Path.joinChars root.toList (referencePath reference).toList =
          [] ++ '/' :: last := by
        rw [whole, alone]
        rfl
      have same := named _ (by rw [joined, Path.namesOf_append_slash _ isName])
      refine absurd (.inr (String.toList_injective ?_)) notBare
      rw [whole, alone, same, String.toList_append, slash]
      rfl
    · have same := named _ (by
        rw [whole, Path.joinChars_append_slash _ alone, Path.namesOf_append_slash _ isName])
      have spelled : (referencePath reference).toList =
          (String.ofList front).toList ++ '/' :: last := by
        rw [whole, String.toList_ofList]
      refine ⟨String.ofList front, by rwa [String.toList_ofList], ?_, ?_⟩
      · refine String.toList_injective ?_
        rw [spelled, same, String.toList_append, String.toList_append, List.append_assoc, slash,
          List.singleton_append]
      · exact (Path.absoluteForm_directory_resolve refers.absolute forward
          (not_mem_referencePath reference) spelled (by rwa [String.toList_ofList]) isName).symm

/-! ## What becomes of it -/

theorem definition_eq (config name : String) :
    definition tree root config name (.text reference) = .ok ⟨.record fields,
      Path.relativeForm (Path.steps root (referredPath root reference)),
      withoutEnding? (referencePath reference) ("/" ++ configName)⟩ := by
  have ⟨text, read, parsed⟩ := refers.parsed
  have found : readConfig .project (referredPath root reference) text = .ok (.record fields) := by
    rw [readConfig, parsed]
  rw [referredPath] at read found
  rw [definition, referredPath]
  unfold followReference
  dsimp only
  rw [read]
  dsimp only
  rw [found]

theorem rootOf_eq (config : String) (defaultRoot : Option String) :
    rootOf ⟨.record fields, config, defaultRoot⟩ = defaultRoot.filter (!·.isEmpty) := by
  rw [rootOf]
  split
  · exact absurd ‹_› (refers.rootless _)
  · rfl

end Refers

theorem withoutEnding?_of_bare (bare : Bare reference) :
    (withoutEnding? (referencePath reference) ("/" ++ configName)).filter (!·.isEmpty) = none := by
  rcases bare with whole | whole
  · rw [whole]
    decide
  · have cut : withoutEnding? ("/" ++ configName) ("/" ++ configName) = some "" :=
      withoutEnding?_eq_some_iff.mpr String.empty_append.symm
    rw [whole, cut]
    rfl

theorem exists_of_sourceRootOf {found : Definition} {sourceRoot : String}
    (declared : sourceRootOf found = some sourceRoot) :
    ∃ text, found.fields.field? "sourceRoot" = some (.text text) ∧
      sourceRoot = Path.relativeForm text := by
  rw [sourceRootOf] at declared
  split at declared
  · split at declared
    · exact ⟨_, ‹_›, (Option.some.inj declared).symm⟩
    · cases declared
  · cases declared

theorem requireInside_eq (name : String) {target : String}
    (inside : Path.isWithin target (Path.absoluteForm root) = true) :
    requireInside root name target = .ok () := by
  rw [requireInside, if_pos inside]

/-- A definition with a root in the workspace gives a project there, unless it declares a source
root outside. -/
theorem resolve_of_rootOf {entry : Json} {found : Definition} {rootPath : String}
    (defined : definition tree root config name entry = .ok found)
    (declared : rootOf found = some rootPath)
    (inside : Path.isWithin (Path.resolve root [rootPath]) (Path.absoluteForm root) = true) :
    (∃ project, resolve tree root config name entry = .ok project ∧
      project.rootPath = rootPath ∧ project.absoluteRootPath = Path.resolve root [rootPath]) ∨
    ∃ text, found.fields.field? "sourceRoot" = some (.text text) ∧
      Path.isWithin (Path.resolve root [Path.relativeForm text]) (Path.absoluteForm root) = false ∧
      resolve tree root config name entry =
        .error (.outsideWorkspace name (Path.resolve root [Path.relativeForm text])) := by
  have placed := requireInside_eq name inside
  cases scanInside : Path.isWithin (Path.resolve root [(sourceRootOf found).getD rootPath])
      (Path.absoluteForm root) with
  | true =>
      have scanPlaced := requireInside_eq name scanInside
      have resolved : ∃ project, resolve tree root config name entry = .ok project ∧
          project.rootPath = rootPath ∧
          project.absoluteRootPath = Path.resolve root [rootPath] := by
        rw [resolve, defined, ok_bind, declared]
        dsimp only
        rw [placed, ok_bind, scanPlaced, ok_bind]
        exact ⟨_, rfl, rfl, rfl⟩
      exact .inl resolved
  | false =>
      cases source : sourceRootOf found with
      | none =>
          rw [source, Option.getD_none, inside] at scanInside
          cases scanInside
      | some sourceRoot =>
          rcases exists_of_sourceRootOf source with ⟨text, given, same⟩
          rw [source, Option.getD_some, same] at scanInside
          have refused : requireInside root name (Path.resolve root [Path.relativeForm text]) =
              .error (.outsideWorkspace name (Path.resolve root [Path.relativeForm text])) := by
            rw [requireInside, if_neg (by rw [scanInside]; exact Bool.false_ne_true)]
          refine .inr ⟨text, given, scanInside, ?_⟩
          rw [resolve, defined, ok_bind, declared]
          dsimp only
          rw [placed, ok_bind, source, Option.getD_some, same, refused, error_bind]

/-- A project that is referred to lives in the directory of its config. It has no root if the
reference is bare. Otherwise its root is what the reference has before the config's name, which is
what the directory is called in the workspace only if the reference spells it name by name. -/
theorem resolve_referred (refers : Refers tree root reference fields) (config name : String) :
    (Bare reference → resolve tree root config name (.text reference) =
      .error (.rootMissing name
        (Path.relativeForm (Path.steps root (referredPath root reference))))) ∧
    (¬Bare reference → ∃ home, referencePath reference = home ++ "/" ++ configName ∧
      (Path.steps root (configDirectory root reference) = home ↔
        home = "." ∨ ∀ part ∈ Path.split home.toList, Path.IsName part) ∧
      ((∃ project, resolve tree root config name (.text reference) = .ok project ∧
          project.rootPath = home ∧
          project.absoluteRootPath = configDirectory root reference) ∨
        ∃ text, (Json.record fields).field? "sourceRoot" = some (.text text) ∧
          Path.isWithin (Path.resolve root [Path.relativeForm text])
            (Path.absoluteForm root) = false ∧
          resolve tree root config name (.text reference) =
            .error (.outsideWorkspace name (Path.resolve root [Path.relativeForm text])))) := by
  have defined := refers.definition_eq config name
  have declared := refers.rootOf_eq
    (Path.relativeForm (Path.steps root (referredPath root reference)))
    (withoutEnding? (referencePath reference) ("/" ++ configName))
  constructor
  · intro bare
    rw [withoutEnding?_of_bare bare] at declared
    rw [resolve, defined, ok_bind, declared]
  · intro notBare
    rcases refers.rooted with ⟨rootNames, rooted⟩
    rcases refers.exists_home notBare with ⟨home, notEmpty, spelled, place⟩
    have inside := refers.directory_inside
    have cut : withoutEnding? (referencePath reference) ("/" ++ configName) = some home := by
      rw [withoutEnding?_eq_some_iff, spelled, String.append_assoc]
    have homeForward := forward_of_withoutEnding? cut (not_mem_referencePath reference)
    have kept : (some home).filter (!·.isEmpty) = some home := by
      have notBlank : home.isEmpty = false := by
        rw [← Bool.not_eq_true, String.isEmpty_iff]
        rintro rfl
        exact notEmpty rfl
      simp [Option.filter, notBlank]
    rw [cut] at defined declared
    rw [← place] at inside ⊢
    exact ⟨home, spelled, Path.steps_resolve_iff rooted refers.forward homeForward inside,
      resolve_of_rootOf defined (declared.trans kept) inside⟩

/-! ## A workspace with two configs -/

def homeTree : FileTree :=
  let config := FileTree.file (Text.Utf8.encode "\x7b\x7d")
  .directory [("w", .directory [
    ("libs", .directory [("a", .directory [(configName, config)])]),
    (configName, config)])]

theorem refers_homeTree {reference path : String} (led : referredPath "/w" reference = path)
    (inside : Path.isWithin path "/w" = true) (named : Path.baseName path = configName)
    (read : homeTree.readText? path = some "\x7b\x7d") : Refers homeTree "/w" reference [] where
  rooted := ⟨[['w']], by decide, .inl rfl⟩
  workspace := rfl
  inside := by rwa [led]
  named := by rwa [led]
  parsed := ⟨_, by rwa [led], rfl⟩
  rootless := nofun

theorem resolve_referred_homeTree :
    Refers homeTree "/w" "./libs/a" [] ∧ ¬Bare "./libs/a" ∧
    ∃ home, referencePath "./libs/a" = home ++ "/" ++ configName ∧
      (Path.steps "/w" (configDirectory "/w" "./libs/a") = home ↔
        home = "." ∨ ∀ part ∈ Path.split home.toList, Path.IsName part) ∧
      ((∃ project, resolve homeTree "/w" "angular.json" "a" (.text "./libs/a") = .ok project ∧
          project.rootPath = home ∧
          project.absoluteRootPath = configDirectory "/w" "./libs/a") ∨
        ∃ text, (Json.record []).field? "sourceRoot" = some (.text text) ∧
          Path.isWithin (Path.resolve "/w" [Path.relativeForm text])
            (Path.absoluteForm "/w") = false ∧
          resolve homeTree "/w" "angular.json" "a" (.text "./libs/a") =
            .error (.outsideWorkspace "a" (Path.resolve "/w" [Path.relativeForm text]))) := by
  have led : referredPath "/w" "./libs/a" = "/w/libs/a/project.json" := by decide +kernel
  have refers : Refers homeTree "/w" "./libs/a" [] :=
    refers_homeTree led (by decide +kernel) (by decide +kernel) rfl
  have notBare : ¬Bare "./libs/a" := by
    rw [Bare]
    decide +kernel
  exact ⟨refers, notBare, (resolve_referred refers "angular.json" "a").2 notBare⟩

/-- The workspace's own directory is no root, and a slash at the end of a reference stays. -/
theorem resolve_homeTree :
    Refers homeTree "/w" "." [] ∧ configDirectory "/w" "." = "/w" ∧
    resolve homeTree "/w" "angular.json" "a" (.text ".") =
      .error (.rootMissing "a" "project.json") ∧
    Refers homeTree "/w" "libs/a/" [] ∧ configDirectory "/w" "libs/a/" = "/w/libs/a" ∧
    Path.steps "/w" "/w/libs/a" = "libs/a" ∧
    (resolve homeTree "/w" "angular.json" "a" (.text "libs/a/")).map (·.rootPath) =
      .ok "libs/a/" := by
  have top : referredPath "/w" "." = "/w/project.json" := by decide +kernel
  have below : referredPath "/w" "libs/a/" = "/w/libs/a/project.json" := by decide +kernel
  refine ⟨refers_homeTree top (by decide +kernel) (by decide +kernel) rfl, by decide +kernel, rfl,
    refers_homeTree below (by decide +kernel) (by decide +kernel) rfl, by decide +kernel,
    by decide +kernel, rfl⟩

end WorkspaceGraph.Project
