import WorkspaceGraph.FileTree
import WorkspaceGraph.Proofs.Path.Rooted
/-!
Writing files. The directories of a file are there before it is put into its place, so a file that
was written is found at its path with what was written.
-/

namespace WorkspaceGraph.FileTree

theorem child?_setChild (name : String) (entry : FileTree) (entries : List (String × FileTree)) :
    child? name (setChild name entry entries) = some entry := by
  induction entries with
  | nil => simp [setChild, child?]
  | cons first rest induction =>
      rw [setChild]
      split
      · simp [child?]
      split
      · simp [child?]
      · rename_i different
        simp [child?, Ne.symm different, induction]

inductive LeadsDown : List String → FileTree → Prop
  | here (entries : List (String × FileTree)) : LeadsDown [] (directory entries)
  | down {name : String} {rest : List String} {entries : List (String × FileTree)}
      {entry : FileTree} (short : name.utf8ByteSize ≤ nameLimit)
      (found : child? name entries = some entry) (leads : LeadsDown rest entry) :
      LeadsDown (name :: rest) (directory entries)

theorem leadsDown_of_makeDirectories {path : String} {names : List String}
    {tree prepared : FileTree} (made : makeDirectories path names tree = .ok prepared) :
    LeadsDown names prepared := by
  induction names generalizing path tree prepared with
  | nil =>
      cases tree with
      | file content => cases made
      | directory entries =>
          cases made
          exact .here entries
  | cons name rest induction =>
      cases tree with
      | file content => cases made
      | directory entries =>
          simp only [makeDirectories] at made
          split at made
          · cases made
          · rename_i short
            split at made
            · cases made
            · rename_i entry inner
              cases made
              exact .down (Nat.le_of_not_lt short) (child?_setChild name entry entries)
                (induction inner)

/-! ## Following names -/

variable {above : List FileTree} {rest : List (List Char)} {name last : String}
  {entries : List (String × FileTree)} {names : List String} {tree : FileTree}

theorem follow_empty : follow above (directory entries) ([] :: rest) =
    follow above (directory entries) rest := by
  simp [follow]

theorem follow_child {entry : FileTree} (isName : Path.IsName name.toList)
    (short : name.utf8ByteSize ≤ nameLimit) (found : child? name entries = some entry) :
    follow above (directory entries) (name.toList :: rest) =
      follow (directory entries :: above) entry rest := by
  simp [follow, isName.notEmpty, isName.notHere, isName.notAbove, Nat.not_lt.mpr short, found]

theorem follow_tooLong (isName : Path.IsName name.toList)
    (long : nameLimit < name.utf8ByteSize) :
    follow above (directory entries) (name.toList :: rest) = .error .nameTooLong := by
  simp [follow, isName.notEmpty, isName.notHere, isName.notAbove, long]

theorem LeadsDown.follow_tooLong (leads : LeadsDown names tree)
    (isName : ∀ name ∈ names, Path.IsName name.toList) (lastIsName : Path.IsName last.toList)
    (long : nameLimit < last.utf8ByteSize) :
    follow above tree (names.map String.toList ++ [last.toList]) = .error .nameTooLong := by
  induction leads generalizing above with
  | here entries => exact FileTree.follow_tooLong lastIsName long
  | down short found leads induction =>
      rcases List.forall_mem_cons.mp isName with ⟨first, isName⟩
      rw [List.map_cons, List.cons_append, follow_child first short found]
      exact induction isName

theorem LeadsDown.follow_setFile (leads : LeadsDown names tree)
    (isName : ∀ name ∈ names, Path.IsName name.toList) (lastIsName : Path.IsName last.toList)
    (short : last.utf8ByteSize ≤ nameLimit) (content : List UInt8) :
    follow above (setFile content last names tree) (names.map String.toList ++ [last.toList]) =
      .ok (file content) := by
  induction leads generalizing above with
  | here entries =>
      rw [setFile, List.map_nil, List.nil_append,
        follow_child lastIsName short (child?_setChild ..)]
      rfl
  | down nameShort found leads induction =>
      rcases List.forall_mem_cons.mp isName with ⟨first, isName⟩
      rw [setFile, List.map_cons, List.cons_append, found,
        follow_child first nameShort (child?_setChild ..)]
      exact induction isName

theorem LeadsDown.isDirectory (leads : LeadsDown names tree) :
    ∃ entries, tree = directory entries := by
  cases leads with
  | here entries => exact ⟨entries, rfl⟩
  | down short found leads => exact ⟨_, rfl⟩

theorem LeadsDown.isDirectory_setFile (leads : LeadsDown names tree) (content : List UInt8) :
    ∃ entries, setFile content last names tree = directory entries := by
  cases leads with
  | here entries => exact ⟨_, rfl⟩
  | down short found leads => exact ⟨_, rfl⟩

/-! ## Reading what was written -/

theorem follow_rooted {path : String} {parts : List (List Char)}
    (rooted : Path.Rooted path.toList parts) (notRoot : parts ≠ []) :
    follow [] (directory entries) (Path.split path.toList) =
      follow [] (directory entries) parts := by
  have names : Path.split (Path.unsplit parts) = parts := Path.split_unsplit rooted.isName notRoot
  have slash := Path.split_append_slash [] (Path.unsplit parts)
  have slashes := Path.split_append_slash [] ('/' :: Path.unsplit parts)
  simp only [List.nil_append, names] at slash slashes
  rw [slash] at slashes
  rcases rooted.shape with shape | shape
  · rw [shape, slash]
    exact follow_empty
  · rw [shape, slashes]
    exact follow_empty.trans follow_empty

theorem find_eq_follow {path : String} (noNul : tree.find path ≠ .error .embeddedNul)
    (notLong : tree.find path ≠ .error .nameTooLong) (other : FileTree) :
    other.find path = follow [] other (Path.split path.toList) := by
  have plain : path.toList.contains '\x00' = false := by
    rw [← Bool.not_eq_true]
    exact fun nul => noNul (if_pos nul)
  have short : ¬pathLimit < path.utf8ByteSize := by
    intro long
    apply notLong
    rw [find, plain, if_neg (by simp), if_pos long]
  rw [find, plain, if_neg (by simp), if_neg short]

theorem find_setFile {path : String} (content : List UInt8)
    (rooted : Path.Rooted path.toList (names.map String.toList ++ [last.toList]))
    (leads : LeadsDown names tree) (noNul : tree.find path ≠ .error .embeddedNul)
    (notLong : tree.find path ≠ .error .nameTooLong) :
    (setFile content last names tree).find path = .ok (file content) := by
  have isNames := List.forall_mem_append.mp rooted.isName
  have isName := List.forall_mem_map.mp isNames.1
  have lastIsName := isNames.2 _ (List.mem_singleton_self _)
  have notRoot : names.map String.toList ++ [last.toList] ≠ [] := by simp
  -- The file's own name is not checked when it is put there, but when it is looked for before.
  have short : last.utf8ByteSize ≤ nameLimit := by
    rw [← Nat.not_lt]
    intro long
    rcases leads.isDirectory with ⟨entries, same⟩
    apply notLong
    rw [find_eq_follow noNul notLong, same, follow_rooted rooted notRoot, ← same]
    exact leads.follow_tooLong isName lastIsName long
  have done : follow [] (setFile content last names tree)
      (names.map String.toList ++ [last.toList]) = .ok (file content) :=
    leads.follow_setFile isName lastIsName short content
  have stays : ∃ entries, setFile content last names tree = directory entries :=
    leads.isDirectory_setFile content
  rcases stays with ⟨entries, same⟩
  rw [same] at done ⊢
  rw [find_eq_follow noNul notLong, follow_rooted rooted notRoot, done]

theorem find_write {path : String} {parts : List (List Char)} {after : FileTree}
    {content : List UInt8} (rooted : Path.Rooted path.toList parts)
    (written : tree.write path content = .ok after) : after.find path = .ok (file content) := by
  simp only [write, rooted.parts_eq] at written
  split at written
  · cases written
  · rename_i last before reversed
    have names : parts = before.reverse.map String.toList ++ [last.toList] := by
      have back := congrArg (fun names => names.reverse.map String.toList) reversed
      simpa [Function.comp_def] using back
    split at written
    · cases written
    · rename_i made
      split at written
      · cases written
      · cases written
      · cases written
      · rename_i notLong noNul
        cases written
        exact find_setFile content (names ▸ rooted) (leadsDown_of_makeDirectories made) noNul
          notLong

theorem read_write {path : String} {parts : List (List Char)} {after : FileTree}
    {content : List UInt8} (rooted : Path.Rooted path.toList parts)
    (written : tree.write path content = .ok after) : after.read path = .ok content := by
  rw [read, find_write rooted written]

end WorkspaceGraph.FileTree
