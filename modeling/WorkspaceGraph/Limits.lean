/-!
The bounds that an installation sets: how long names may be and how often a commit is tried.
-/

namespace WorkspaceGraph

structure Limits where
  keyLength : Int
  workspaceLength : Int
  scannerNameLength : Int
  scannerVersionLength : Int
  finalizeAttempts : Int
deriving DecidableEq, Repr

namespace Limits

def standard : Limits where
  keyLength := 128
  workspaceLength := 128
  scannerNameLength := 128
  scannerVersionLength := 64
  finalizeAttempts := 5

/-- How often a commit is tried: at least once. -/
def attempts (limits : Limits) : Nat := max limits.finalizeAttempts.toNat 1

end Limits

end WorkspaceGraph
