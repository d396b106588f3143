import WorkspaceGraph.Proofs.Source.Walk
/-!
The source files of a directory. The walk finds every file that is scanned, once, and in the order
of their paths, compared component by component. That is another order than that of the paths as
texts, and in whichever order directories list their entries makes no difference to it.
-/

namespace WorkspaceGraph

inductive FileTree.Holds : FileTree → List String → List UInt8 → Prop
  | file (content : List UInt8) : Holds (file content) [] content
  | entry {entries : List (String × FileTree)} {name : String} {inner : FileTree}
      {names : List String} {content : List UInt8} (member : (name, inner) ∈ entries)
      (holds : Holds inner names content) : Holds (directory entries) (name :: names) content

namespace FileTree

variable {tree : FileTree} {entries : List (String × FileTree)} {names : List String}
  {content : List UInt8}

theorem Holds.isName (holds : tree.Holds names content) (proper : tree.Proper) :
    ∀ name ∈ names, Path.IsName name.toList := by
  induction holds with
  | file content => simp
  | entry member holds induction =>
      cases proper with
      | directory _ distinct isName inner =>
          exact List.forall_mem_cons.mpr ⟨isName _ member, induction (inner _ member)⟩

end FileTree

/-! ## Paths along names -/

namespace Path

theorem components_join (path : String) {name : String} (isName : IsName name.toList) :
    components (join path name).toList = components path.toList ++ [name.toList] := by
  have alone : components name.toList = [name.toList] := by
    simpa [unsplit] using components_unsplit (List.forall_mem_singleton.mpr isName)
  have relative : name.toList.head? ≠ some '/' := fun first =>
    isName.noSlash (List.mem_of_head? first)
  rw [join, String.toList_ofList, joinChars, if_neg (by simpa using relative)]
  split
  · rename_i ends
    rw [Bool.or_eq_true, List.isEmpty_iff, beq_iff_eq] at ends
    rcases ends with empty | slash
    · rw [empty]
      exact alone
    · rcases List.getLast?_eq_some_iff.mp slash with ⟨front, shape⟩
      have nothing : components [] = [] := rfl
      rw [shape, List.append_assoc, List.singleton_append, components_append_slash,
        components_append_slash, alone, nothing, List.append_nil]
  · rw [components_append_slash, alone]

theorem components_foldl_join (path : String) {names : List String}
    (isName : ∀ name ∈ names, IsName name.toList) :
    components (names.foldl join path).toList =
      components path.toList ++ names.map String.toList := by
  induction names generalizing path with
  | nil => simp
  | cons name rest induction =>
      have parts := List.forall_mem_cons.mp isName
      rw [List.foldl_cons, induction _ parts.2, components_join path parts.1, List.append_assoc]
      rfl

end Path

namespace Source

/-! ## Which files are scanned -/

/-- Along the names, no directory that is left out is entered, and the file that they lead to has
the ending of source files and none of those that are ignored. -/
structure IsScanned (names : List String) : Prop where
  entered : ∀ directory ∈ names.dropLast, directory ∉ ignoredDirectories
  source : ∃ name, names.getLast? = some name ∧ suffix.toList <:+ name.toList ∧
    ∀ ending ∈ ignoredSuffixes, ¬ending.toList <:+ name.toList

theorem isSourceFile_iff {name : String} : isSourceFile name = true ↔
    suffix.toList <:+ name.toList ∧
      ∀ ending ∈ ignoredSuffixes, ¬ending.toList <:+ name.toList := by
  simp only [isSourceFile, endsWith, Bool.and_eq_true, Bool.not_eq_true', List.any_eq_false,
    List.isSuffixOf_iff_suffix]

theorem isIgnoredDirectory_eq_false_iff {name : String} :
    isIgnoredDirectory name = false ↔ name ∉ ignoredDirectories := by
  rw [isIgnoredDirectory, ← Bool.not_eq_true, List.contains_iff_mem]

variable {path name next : String} {names rest : List String} {entry : FileTree}
  {entries : List (String × FileTree)} {found : Found}

theorem isScanned_singleton : IsScanned [name] ↔ isSourceFile name = true := by
  rw [isSourceFile_iff]
  constructor
  · rintro ⟨-, only, last, endings⟩
    cases last
    exact endings
  · exact fun endings => ⟨by simp, name, rfl, endings⟩

theorem isScanned_cons_cons : IsScanned (name :: next :: rest) ↔
    isIgnoredDirectory name = false ∧ IsScanned (next :: rest) := by
  rw [isIgnoredDirectory_eq_false_iff]
  constructor
  · rintro ⟨entered, source⟩
    rw [List.dropLast_cons_cons, List.forall_mem_cons] at entered
    rw [List.getLast?_cons_cons] at source
    exact ⟨entered.1, entered.2, source⟩
  · rintro ⟨first, entered, source⟩
    refine ⟨?_, ?_⟩
    · rw [List.dropLast_cons_cons, List.forall_mem_cons]
      exact ⟨first, entered⟩
    · rwa [List.getLast?_cons_cons]

/-! ## What the walk finds -/

structure FoundIn (tree : FileTree) (path : String) (names : List String) (found : Found) :
    Prop where
  holds : tree.Holds names found.content
  path_eq : found.path = names.foldl Path.join path

theorem foundIn_of_mem_walkEntry (proper : entry.Proper)
    (member : found ∈ walkEntry path name entry) :
    ∃ names, FoundIn entry (Path.join path name) names found ∧ IsScanned (name :: names) := by
  induction proper generalizing path name with
  | file content =>
      rw [walkEntry] at member
      split at member
      · cases List.mem_singleton.mp member
        exact ⟨[], ⟨.file content, rfl⟩, isScanned_singleton.mpr ‹_›⟩
      · cases member
  | directory entries distinct isName inner induction =>
      rw [walkEntry_directory] at member
      split at member
      · cases member
      · rename_i notIgnored
        rcases mem_walkEntries.mp member with ⟨entry, inside, member⟩
        rcases induction entry inside member with ⟨names, ⟨holds, path_eq⟩, scanned⟩
        exact ⟨entry.1 :: names, ⟨.entry inside holds, path_eq⟩,
          isScanned_cons_cons.mpr ⟨Bool.not_eq_true _ ▸ notIgnored, scanned⟩⟩

theorem mem_walkEntry_of_holds {content : List UInt8} (holds : entry.Holds names content)
    (scanned : IsScanned (name :: names)) :
    ⟨(name :: names).foldl Path.join path, content⟩ ∈ walkEntry path name entry := by
  induction holds generalizing path name with
  | file content =>
      rw [walkEntry, if_pos (isScanned_singleton.mp scanned)]
      exact List.mem_singleton.mpr rfl
  | entry member holds induction =>
      rcases isScanned_cons_cons.mp scanned with ⟨notIgnored, inner⟩
      rw [walkEntry_directory, notIgnored, if_neg (by simp), mem_walkEntries]
      exact ⟨_, member, induction inner⟩

/-- The walk finds what the directory holds, as far as it is scanned. -/
theorem mem_walkEntries_iff (proper : (FileTree.directory entries).Proper) :
    found ∈ walkEntries path entries ↔
      ∃ names, FoundIn (.directory entries) path names found ∧ IsScanned names := by
  rw [mem_walkEntries]
  constructor
  · rintro ⟨entry, inside, member⟩
    cases proper with
    | directory _ distinct isName inner =>
        have ⟨names, ⟨holds, path_eq⟩, scanned⟩ :=
          foundIn_of_mem_walkEntry (inner entry inside) member
        exact ⟨entry.1 :: names, ⟨.entry inside holds, path_eq⟩, scanned⟩
  · rintro ⟨names, ⟨holds, path_eq⟩, scanned⟩
    cases found
    cases path_eq
    cases holds with
    | entry member holds => exact ⟨_, member, mem_walkEntry_of_holds holds scanned⟩

/-! ## The order of paths -/

def Found.Before (left right : Found) : Prop :=
  Path.components left.path.toList < Path.components right.path.toList

theorem components_of_mem_walkEntry (proper : entry.Proper) (isName : Path.IsName name.toList)
    (member : found ∈ walkEntry path name entry) :
    ∃ below, Path.components found.path.toList =
      Path.components path.toList ++ name.toList :: below := by
  have ⟨names, ⟨holds, path_eq⟩, _⟩ := foundIn_of_mem_walkEntry proper member
  refine ⟨names.map String.toList, ?_⟩
  rw [path_eq, Path.components_foldl_join _ (holds.isName proper), Path.components_join _ isName,
    List.append_assoc, List.singleton_append]

theorem walkEntries_increasing
    (distinct : entries.Pairwise fun left right => left.1 ≠ right.1)
    (isName : ∀ entry ∈ entries, Path.IsName entry.1.toList)
    (inner : ∀ entry ∈ entries, entry.2.Proper)
    (each : ∀ entry ∈ entries, (walkEntry path entry.1 entry.2).Pairwise Found.Before) :
    (walkEntries path entries).Pairwise Found.Before := by
  have sorted := Order.sortOn_perm (fun entry => [entry.1]) entries
  rw [walkEntries_eq_flatMap, List.pairwise_flatMap]
  refine ⟨fun entry member => each entry (sorted.mem_iff.mp member), ?_⟩
  refine (Order.sortOn_names_increasing distinct).imp_of_mem ?_
  intro left right leftMember rightMember earlier one oneMember other otherMember
  have leftInside := sorted.mem_iff.mp leftMember
  have rightInside := sorted.mem_iff.mp rightMember
  have ⟨_, oneComponents⟩ :=
    components_of_mem_walkEntry (inner left leftInside) (isName left leftInside) oneMember
  have ⟨_, otherComponents⟩ :=
    components_of_mem_walkEntry (inner right rightInside) (isName right rightInside) otherMember
  rw [Found.Before, oneComponents, otherComponents]
  exact List.append_left_lt (List.cons_lt_cons_iff.mpr (.inl (String.lt_iff.mp earlier)))

theorem walkEntry_increasing (proper : entry.Proper) (path name : String) :
    (walkEntry path name entry).Pairwise Found.Before := by
  induction proper generalizing path name with
  | file content =>
      rw [walkEntry]
      split <;> simp
  | directory entries distinct isName inner induction =>
      rw [walkEntry_directory]
      split
      · exact .nil
      · exact walkEntries_increasing distinct isName inner fun entry member =>
          induction entry member _ _

/-! ## The listing -/

/-- The files of a listing are those that are scanned, each once and in the order of their
paths. -/
structure Listing (directory : FileTree) (root : String) (files : List Found) : Prop where
  exact : ∀ found, found ∈ files ↔ ∃ names, FoundIn directory root names found ∧ IsScanned names
  increasing : files.Pairwise Found.Before

theorem listing_walkEntries (proper : (FileTree.directory entries).Proper) (root : String) :
    Listing (.directory entries) root (walkEntries root entries) where
  exact _ := mem_walkEntries_iff proper
  increasing := by
    cases proper with
    | directory _ distinct isName inner =>
        exact walkEntries_increasing distinct isName inner fun entry member =>
          walkEntry_increasing (inner entry member) _ _

instance : Std.Irrefl Found.Before where
  irrefl _ := List.lt_irrefl _

instance : Std.Antisymm Found.Before where
  antisymm _ _ before after := absurd before (List.lt_asymm after)

/-- What a directory holds has one listing only. -/
theorem Listing.eq {directory other : FileTree} {root : String} {files others : List Found}
    (listing : Listing directory root files) (otherListing : Listing other root others)
    (same : ∀ names content, directory.Holds names content ↔ other.Holds names content) :
    files = others := by
  refine listing.increasing.eq_of_mem_iff otherListing.increasing fun found => ?_
  rw [listing.exact, otherListing.exact]
  refine exists_congr fun names => and_congr_left fun _ => ?_
  exact ⟨fun ⟨holds, path_eq⟩ => ⟨(same _ _).mp holds, path_eq⟩,
    fun ⟨holds, path_eq⟩ => ⟨(same _ _).mpr holds, path_eq⟩⟩

/-- Every directory has a listing, whatever it is called, and only what it holds decides it: the
order in which directories list their entries does not. -/
theorem filesBelow_listed {tree : FileTree} {root : String} (proper : tree.Proper)
    (led : tree.find root = .ok (.directory entries)) :
    ∃ files, filesBelow tree root = .ok files ∧ Listing (.directory entries) root files ∧
      ∀ (other : FileTree) (others : List (String × FileTree)), other.Proper →
        other.find root = .ok (.directory others) →
        (∀ names content, (FileTree.directory entries).Holds names content ↔
          (FileTree.directory others).Holds names content) →
        filesBelow other root = .ok files := by
  have listing := listing_walkEntries (FileTree.named_of_find proper led).1 root
  refine ⟨walkEntries root entries, ?_, listing, ?_⟩
  · rw [filesBelow, led]
  · intro other others otherProper otherLed same
    have otherListing := listing_walkEntries (FileTree.named_of_find otherProper otherLed).1 root
    rw [filesBelow, otherLed]
    exact congrArg Except.ok (listing.eq otherListing same).symm

/-! ## A directory with files and directories of similar names -/

/-- The entries of a directory, in no order. Where one of them is `a` and another one `a-b.ts`, the
paths as texts are in another order than their components. -/
def listedEntries : List (String × FileTree) :=
  [("x.ts", .directory [("x.spec.ts", .file []), ("x.ts", .file [])]), ("a-b.ts", .file []),
    ("a", .directory [("z.ts", .file []), ("dist", .directory [("y.ts", .file [])])]),
    ("readme.md", .file [])]

/-- The directory has a name that it would be left out for below another one. -/
def listedTree : FileTree := .directory [("dist", .directory listedEntries)]

theorem proper_listedTree : listedTree.Proper := by
  refine .directory _ (by decide) (by decide) (List.forall_mem_singleton.mpr ?_)
  refine .directory _ (by decide) (by decide) ?_
  refine List.forall_mem_cons.mpr ⟨?_, List.forall_mem_cons.mpr ⟨.file _, ?_⟩⟩
  · exact .directory _ (by decide) (by decide)
      (List.forall_mem_cons.mpr ⟨.file _, List.forall_mem_singleton.mpr (.file _)⟩)
  · refine List.forall_mem_cons.mpr ⟨?_, List.forall_mem_singleton.mpr (.file _)⟩
    refine .directory _ (by decide) (by decide) (List.forall_mem_cons.mpr ⟨.file _, ?_⟩)
    exact List.forall_mem_singleton.mpr
      (.directory _ (by decide) (by decide) (List.forall_mem_singleton.mpr (.file _)))

theorem filesBelow_listed_unordered :
    listedTree.Proper ∧ listedTree.find "/dist" = .ok (.directory listedEntries) ∧
      filesBelow listedTree "/dist" =
        .ok [⟨"/dist/a/z.ts", []⟩, ⟨"/dist/a-b.ts", []⟩, ⟨"/dist/x.ts/x.ts", []⟩] ∧
      Listing (.directory listedEntries) "/dist"
        [⟨"/dist/a/z.ts", []⟩, ⟨"/dist/a-b.ts", []⟩, ⟨"/dist/x.ts/x.ts", []⟩] := by
  have led : listedTree.find "/dist" = .ok (.directory listedEntries) := rfl
  have evaluated : filesBelow listedTree "/dist" =
      .ok [⟨"/dist/a/z.ts", []⟩, ⟨"/dist/a-b.ts", []⟩, ⟨"/dist/x.ts/x.ts", []⟩] := by
    rw [filesBelow, led]
    exact congrArg Except.ok (by decide +kernel)
  rcases filesBelow_listed proper_listedTree led with ⟨files, listed, listing, _⟩
  cases listed.symm.trans evaluated
  exact ⟨proper_listedTree, led, evaluated, listing⟩

end Source

end WorkspaceGraph
