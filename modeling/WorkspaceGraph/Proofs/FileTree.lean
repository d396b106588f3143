import WorkspaceGraph.FileTree
import WorkspaceGraph.Proofs.Path.Rooted
/-!
Trees as file systems hold them: the entries of a directory have names that can be told from paths,
and no two have the same. Whatever is found in such a tree is such a tree, and the parts of a path
that leads anywhere in it are names or dots.
-/

namespace WorkspaceGraph.FileTree

inductive Named (isName : String → Prop) : FileTree → Prop
  | file (content : List UInt8) : Named isName (file content)
  | directory (entries : List (String × FileTree))
      (distinct : entries.Pairwise fun left right => left.1 ≠ right.1)
      (names : ∀ entry ∈ entries, isName entry.1)
      (inner : ∀ entry ∈ entries, Named isName entry.2) : Named isName (directory entries)

abbrev Proper (tree : FileTree) : Prop := Named (fun name => Path.IsName name.toList) tree

abbrev Plain (tree : FileTree) : Prop := Named Path.IsPlainName tree

theorem Named.mono {isName weaker : String → Prop} {tree : FileTree} (named : Named isName tree)
    (weaken : ∀ name, isName name → weaker name) : Named weaker tree := by
  induction named with
  | file content => exact .file content
  | directory entries distinct names inner induction =>
      exact .directory entries distinct (fun entry member => weaken _ (names entry member)) induction

theorem Named.proper {tree : FileTree} (plain : tree.Plain) : tree.Proper :=
  plain.mono fun _ name => name.toIsName

theorem mem_of_child? {name : String} {entries : List (String × FileTree)} {entry : FileTree}
    (found : child? name entries = some entry) : (name, entry) ∈ entries := by
  induction entries with
  | nil => cases found
  | cons first rest induction =>
      rw [child?] at found
      split at found
      · rename_i same
        cases found
        exact List.mem_cons.mpr (.inl (by rw [← beq_iff_eq.mp same]))
      · exact List.mem_cons_of_mem _ (induction found)

def IsStep (isName : String → Prop) (part : List Char) : Prop :=
  part = [] ∨ part = ['.'] ∨ part = ['.', '.'] ∨ isName (String.ofList part)

variable {isName : String → Prop} {found : FileTree}

theorem named_of_follow {above : List FileTree} {current : FileTree} {parts : List (List Char)}
    (aboveNamed : ∀ outer ∈ above, Named isName outer) (named : Named isName current)
    (led : follow above current parts = .ok found) :
    Named isName found ∧ ∀ part ∈ parts, IsStep isName part := by
  induction parts generalizing above current with
  | nil =>
      cases led
      exact ⟨named, by simp⟩
  | cons part rest induction =>
      cases named with
      | file content => cases led
      | directory entries distinct names inner =>
          have self := Named.directory entries distinct names inner
          have goOn : IsStep isName part →
              (Named isName found ∧ ∀ part ∈ rest, IsStep isName part) →
              Named isName found ∧ ∀ other ∈ part :: rest, IsStep isName other :=
            fun step after => ⟨after.1, List.forall_mem_cons.mpr ⟨step, after.2⟩⟩
          rw [follow.eq_def] at led
          dsimp only at led
          split at led
          · rename_i here
            simp only [Bool.or_eq_true, beq_iff_eq] at here
            have step : IsStep isName part := here.imp_right .inl
            exact goOn step (induction aboveNamed self led)
          split at led
          · rename_i up
            have step : IsStep isName part := .inr (.inr (.inl (beq_iff_eq.mp up)))
            cases above with
            | nil => exact goOn step (induction (by simp) self led)
            | cons outer more =>
                have parts := List.forall_mem_cons.mp aboveNamed
                exact goOn step (induction parts.2 parts.1 led)
          · split at led
            · cases led
            split at led
            · cases led
            · rename_i entry child
              have member := mem_of_child? child
              have deeper : ∀ outer ∈ directory entries :: above, Named isName outer :=
                List.forall_mem_cons.mpr ⟨self, aboveNamed⟩
              exact goOn (.inr (.inr (.inr (names _ member))))
                (induction deeper (inner _ member) led)

theorem named_of_find {tree : FileTree} (named : Named isName tree) {path : String}
    (led : tree.find path = .ok found) :
    Named isName found ∧ ∀ part ∈ Path.split path.toList, IsStep isName part := by
  unfold FileTree.find at led
  split at led
  · cases led
  split at led
  · cases led
  · exact named_of_follow (by simp) named led

theorem forward_of_find {tree : FileTree} (plain : tree.Plain) {path : String}
    (led : tree.find path = .ok found) : '\\' ∉ path.toList := by
  intro member
  rcases Path.mem_split_of_mem member with same | ⟨part, inside, member⟩
  · cases same
  · rcases (named_of_find plain led).2 part inside with rfl | rfl | rfl | name
    · simp at member
    · simp at member
    · simp at member
    · exact name.forward (by simpa using member)

end WorkspaceGraph.FileTree
