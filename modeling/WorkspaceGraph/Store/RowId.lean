/-!
Ids of rows. The store issues numbers of its own; a row may also be referred to by a name from
outside, which never is a number the store has issued.
-/

namespace WorkspaceGraph

inductive RowId
  | issued (number : Nat)
  | named (name : String)
deriving DecidableEq, Repr

end WorkspaceGraph
