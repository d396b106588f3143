import WorkspaceGraph.Source.File
import WorkspaceGraph.Proofs.FileTree
import WorkspaceGraph.Proofs.Order
import WorkspaceGraph.Proofs.Path.Within
/-!
The walk through a plain tree. Every file is found below the directory the walk began at, along the
names of the directories on the way, and no two files are found along the same names. So a file is
known by its path relative to any directory above.
-/

namespace WorkspaceGraph.Source

structure Found.Below (found : Found) (names below : List (List Char)) : Prop extends
    Path.Normal found.path (names ++ below) where
  source : ∃ name, isSourceFile name = true ∧ below.getLast? = some name.toList

theorem visits_eq_map (path : String) (entries : List (String × FileTree)) :
    visits path entries = entries.map fun entry => (entry.1, walkEntry path entry.1 entry.2) := by
  induction entries with
  | nil => rw [visits, List.map_nil]
  | cons entry rest induction => rw [visits, induction, List.map_cons]

theorem walkEntries_eq_flatMap (path : String) (entries : List (String × FileTree)) :
    walkEntries path entries = (Order.sortOn (fun entry => [entry.1]) entries).flatMap
      fun entry => walkEntry path entry.1 entry.2 := by
  rw [walkEntries, inOrder, visits_eq_map, Order.sortOn_map, List.flatMap_map]

theorem mem_walkEntries {path : String} {entries : List (String × FileTree)} {found : Found} :
    found ∈ walkEntries path entries ↔
      ∃ entry ∈ entries, found ∈ walkEntry path entry.1 entry.2 := by
  rw [walkEntries_eq_flatMap, List.mem_flatMap]
  simp only [(Order.sortOn_perm _ entries).mem_iff]

theorem walkEntry_directory (path name : String) (entries : List (String × FileTree)) :
    walkEntry path name (.directory entries) =
      if isIgnoredDirectory name then [] else walkEntries (Path.join path name) entries := by
  rw [walkEntry]
  rfl

variable {path name : String} {names : List (List Char)} {entry : FileTree}
  {entries : List (String × FileTree)} {found : Found}

theorem walkEntry_below (plain : entry.Plain) (normal : Path.Normal path names)
    (plainName : Path.IsPlainName name) (member : found ∈ walkEntry path name entry) :
    ∃ below, found.Below names (name.toList :: below) := by
  induction plain generalizing path name names with
  | file content =>
      rw [walkEntry] at member
      split at member
      · cases List.mem_singleton.mp member
        exact ⟨[], normal.join plainName, name, ‹_›, rfl⟩
      · cases member
  | directory entries distinct isPlainName inner induction =>
      rw [walkEntry_directory] at member
      split at member
      · cases member
      · rcases mem_walkEntries.mp member with ⟨entry, inside, member⟩
        have ⟨below, located⟩ :=
          induction entry inside (normal.join plainName) (isPlainName entry inside) member
        refine ⟨entry.1.toList :: below, ⟨?_, ?_⟩⟩
        · simpa using located.toNormal
        · rw [List.getLast?_cons_cons]
          exact located.source

/-- In any tree a file is found along names, the last of which is a source file's. -/
theorem walkEntry_rooted (proper : entry.Proper) (rooted : Path.Rooted path.toList names)
    (isName : Path.IsName name.toList) (member : found ∈ walkEntry path name entry) :
    ∃ below source, isSourceFile source = true ∧
      (name.toList :: below).getLast? = some source.toList ∧
      Path.Rooted found.path.toList (names ++ name.toList :: below) := by
  have joined : Path.Rooted (Path.join path name).toList (names ++ [name.toList]) := by
    simpa [Path.join] using rooted.joinChars isName
  induction proper generalizing path name names with
  | file content =>
      rw [walkEntry] at member
      split at member
      · cases List.mem_singleton.mp member
        exact ⟨[], name, ‹_›, rfl, joined⟩
      · cases member
  | directory entries distinct isNames inner induction =>
      rw [walkEntry_directory] at member
      split at member
      · cases member
      · rcases mem_walkEntries.mp member with ⟨entry, inside, member⟩
        have further := joined.joinChars (isNames entry inside)
        rcases induction entry inside joined (isNames entry inside) member
          (by simpa [Path.join] using further) with ⟨below, source, isSource, last, located⟩
        refine ⟨entry.1.toList :: below, source, isSource, ?_, ?_⟩
        · rwa [List.getLast?_cons_cons]
        · simpa using located

theorem walkEntry_within (proper : entry.Proper) (trimmed : Path.Trimmed path)
    (isName : Path.IsName name.toList) (member : found ∈ walkEntry path name entry) :
    Path.isWithin found.path path = true := by
  have joined := trimmed.join isName
  induction proper generalizing path name with
  | file content =>
      rw [walkEntry] at member
      split at member
      · cases List.mem_singleton.mp member
        exact joined.1
      · cases member
  | directory entries distinct names inner induction =>
      rw [walkEntry_directory] at member
      split at member
      · cases member
      · rcases mem_walkEntries.mp member with ⟨entry, inside, member⟩
        have deeper := induction entry inside joined.2 (names entry inside) member
          (joined.2.join (names entry inside))
        exact Path.isWithin_trans deeper joined.1

theorem parts_ne_of_below {left right : Found} {first second : List Char}
    {leftBelow rightBelow : List (List Char)} (leftLocated : left.Below names (first :: leftBelow))
    (rightLocated : right.Below names (second :: rightBelow)) (different : first ≠ second) :
    Path.parts left.path ≠ Path.parts right.path := by
  rw [leftLocated.parts_eq, rightLocated.parts_eq]
  intro same
  exact different (List.cons.inj (List.append_cancel_left same)).1

theorem walkEntries_distinct (normal : Path.Normal path names)
    (distinct : entries.Pairwise fun left right => left.1 ≠ right.1)
    (isPlainName : ∀ entry ∈ entries, Path.IsPlainName entry.1)
    (inner : ∀ entry ∈ entries, entry.2.Plain)
    (each : ∀ entry ∈ entries, (walkEntry path entry.1 entry.2).Pairwise fun left right =>
      Path.parts left.path ≠ Path.parts right.path) :
    (walkEntries path entries).Pairwise fun left right =>
      Path.parts left.path ≠ Path.parts right.path := by
  have sorted := Order.sortOn_perm (fun entry => [entry.1]) entries
  rw [walkEntries_eq_flatMap, List.pairwise_flatMap]
  refine ⟨fun entry member => each entry (sorted.mem_iff.mp member), ?_⟩
  refine (sorted.symm.pairwise distinct Ne.symm).imp_of_mem ?_
  intro left right leftMember rightMember different one oneMember other otherMember
  have leftInside := sorted.mem_iff.mp leftMember
  have rightInside := sorted.mem_iff.mp rightMember
  have ⟨_, oneLocated⟩ := walkEntry_below (inner left leftInside) normal
    (isPlainName left leftInside) oneMember
  have ⟨_, otherLocated⟩ := walkEntry_below (inner right rightInside) normal
    (isPlainName right rightInside) otherMember
  exact parts_ne_of_below oneLocated otherLocated fun same =>
    different (String.toList_injective same)

theorem walkEntry_distinct (plain : entry.Plain) (normal : Path.Normal path names)
    (plainName : Path.IsPlainName name) :
    (walkEntry path name entry).Pairwise fun left right =>
      Path.parts left.path ≠ Path.parts right.path := by
  induction plain generalizing path name names with
  | file content =>
      rw [walkEntry]
      split <;> simp
  | directory entries distinct isPlainName inner induction =>
      rw [walkEntry_directory]
      split
      · exact .nil
      · have joined := normal.join plainName
        exact walkEntries_distinct joined distinct isPlainName inner fun entry member =>
          induction entry member joined (isPlainName entry member)

/-! ## Files below a directory -/

variable {tree : FileTree} {root : String} {rootNames : List (List Char)} {files : List Found}

theorem named_of_filesBelow {isName : String → Prop} (named : tree.Named isName)
    (listed : filesBelow tree root = .ok files) :
    ∃ entries, (FileTree.directory entries).Named isName ∧ files = walkEntries root entries := by
  rw [filesBelow] at listed
  split at listed
  · rename_i entries led
    cases listed
    exact ⟨entries, (FileTree.named_of_find named led).1, rfl⟩
  · cases listed
  · cases listed

theorem filesBelow_within (proper : tree.Proper) (trimmed : Path.Trimmed root)
    (listed : filesBelow tree root = .ok files) (member : found ∈ files) :
    Path.isWithin found.path root = true := by
  have ⟨entries, inside, walked⟩ := named_of_filesBelow proper listed
  rw [walked] at member
  cases inside with
  | directory _ distinct names inner =>
      rcases mem_walkEntries.mp member with ⟨entry, entryMember, member⟩
      exact walkEntry_within (inner entry entryMember) trimmed (names entry entryMember) member

theorem filesBelow_rooted (proper : tree.Proper) (rooted : Path.Rooted root.toList rootNames)
    (listed : filesBelow tree root = .ok files) (member : found ∈ files) :
    ∃ below source, isSourceFile source = true ∧ below.getLast? = some source.toList ∧
      Path.Rooted found.path.toList (rootNames ++ below) := by
  have ⟨entries, inside, walked⟩ := named_of_filesBelow proper listed
  rw [walked] at member
  cases inside with
  | directory _ distinct names inner =>
      rcases mem_walkEntries.mp member with ⟨entry, entryMember, member⟩
      have ⟨below, located⟩ := walkEntry_rooted (inner entry entryMember) rooted
        (names entry entryMember) member
      exact ⟨_, located⟩

theorem filesBelow_below (plain : tree.Plain) (normal : Path.Normal root rootNames)
    (listed : filesBelow tree root = .ok files) (member : found ∈ files) :
    ∃ below, found.Below rootNames below := by
  have ⟨entries, inside, walked⟩ := named_of_filesBelow plain listed
  rw [walked] at member
  cases inside with
  | directory _ distinct isPlainName inner =>
      rcases mem_walkEntries.mp member with ⟨entry, entryMember, member⟩
      have ⟨below, located⟩ := walkEntry_below (inner entry entryMember) normal
        (isPlainName entry entryMember) member
      exact ⟨_, located⟩

theorem filesBelow_distinct (plain : tree.Plain) (normal : Path.Normal root rootNames)
    (listed : filesBelow tree root = .ok files) :
    files.Pairwise fun left right => Path.parts left.path ≠ Path.parts right.path := by
  have ⟨entries, inside, walked⟩ := named_of_filesBelow plain listed
  rw [walked]
  cases inside with
  | directory _ distinct isPlainName inner =>
      exact walkEntries_distinct normal distinct isPlainName inner fun entry member =>
        walkEntry_distinct (inner entry member) normal (isPlainName entry member)

/-! ## Relative paths -/

theorem ne_newline_of_isSourceFile {name : String} (source : isSourceFile name = true) :
    name.toList ≠ ['\n'] := by
  intro newline
  have ending : endsWith name suffix = false := by
    rw [endsWith, newline]
    decide
  simp [isSourceFile, ending] at source

variable {workspace : String} {workspaceNames between below : List (List Char)}

theorem Found.Below.relativeTo_eq (located : found.Below (workspaceNames ++ between) below)
    (rooted : Path.Rooted workspace.toList workspaceNames) :
    Path.relativeTo workspace found.path =
      some (String.ofList (Path.unsplit (between ++ below))) := by
  have ⟨name, source, last⟩ := located.source
  have whole : Path.Normal found.path (workspaceNames ++ (between ++ below)) := by
    rw [← List.append_assoc]
    exact located.toNormal
  have ends : (between ++ below).getLast? = some name.toList := by
    rw [List.getLast?_append, last, Option.some_or]
  refine whole.relativeTo_eq rooted ?_ ?_
  · intro empty
    rw [empty] at ends
    cases ends
  · rw [ends]
    exact fun newline => ne_newline_of_isSourceFile source (Option.some.inj newline)

/-- Files of one directory that are found along different names have different relative paths. -/
theorem relativeTo_ne_of_below {left right : Found} {leftBelow rightBelow : List (List Char)}
    (leftLocated : left.Below (workspaceNames ++ between) leftBelow)
    (rightLocated : right.Below (workspaceNames ++ between) rightBelow)
    (rooted : Path.Rooted workspace.toList workspaceNames)
    (different : Path.parts left.path ≠ Path.parts right.path) :
    Path.relativeTo workspace left.path ≠ Path.relativeTo workspace right.path := by
  rw [leftLocated.relativeTo_eq rooted, rightLocated.relativeTo_eq rooted]
  intro same
  refine different ?_
  rw [leftLocated.parts_eq, rightLocated.parts_eq, List.append_assoc, List.append_assoc]
  have isName : ∀ {found : Found} {below : List (List Char)},
      found.Below (workspaceNames ++ between) below →
        ∀ name ∈ between ++ below, Path.IsName name := fun located name member =>
    located.isName name (List.append_assoc .. ▸ List.mem_append_right _ member)
  have spelled := String.ofList_injective (Option.some.inj same)
  exact congrArg _ (Path.unsplit_injective (isName leftLocated) (isName rightLocated) spelled)

end WorkspaceGraph.Source
