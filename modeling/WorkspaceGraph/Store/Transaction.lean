import WorkspaceGraph.Store.Draft
import WorkspaceGraph.Store.Error
/-!
Transactions. A transaction is a sequence of operations on the store. Its changes are kept if every
operation and the commit succeed; otherwise the store is left as it was.

An operation can be made to fail, or a lookup to miss, from outside: the faults say which ones. A
fault that has struck is used up, also if the transaction is undone.
-/

namespace WorkspaceGraph

structure Faults where
  /-- This many lookups by key find nothing. -/
  staleReads : Nat
  /-- This many insertions of a version find their number taken. -/
  lostVersions : Nat
  /-- How the next insertion of a version fails. -/
  version : Option StoreError
  /-- How the next change of a head fails. -/
  head : Option StoreError
  /-- For the coming operations and commits, how each of them fails, if it does. -/
  upcoming : List (Option StoreError)
deriving DecidableEq, Repr

def Faults.none : Faults := ⟨0, 0, .none, .none, []⟩

abbrev Transaction := StateT Store (ExceptT StoreError (StateM Faults))

namespace Transaction

/-! ## Faults -/

def begin : Transaction Unit := do
  let faults ← getThe Faults
  match faults.upcoming with
  | [] => pure ()
  | outcome :: rest =>
      set { faults with upcoming := rest }
      match outcome with
      | some error => throw error
      | none => pure ()

def missesKey : Transaction Bool := do
  let faults ← getThe Faults
  if faults.staleReads = 0 then pure false
  else
    set { faults with staleReads := faults.staleReads - 1 }
    pure true

/-- Fail if the insertion of a version is to fail: first for a number that is taken. -/
def strikeVersion (workspaceId : Option String) (number : Option Int) : Transaction Unit := do
  let faults ← getThe Faults
  if faults.lostVersions = 0 then
    match faults.version with
    | some error =>
        set { faults with version := none }
        throw error
    | none => pure ()
  else
    set { faults with lostVersions := faults.lostVersions - 1 }
    throw (.versionTaken workspaceId number)

def strikeHead : Transaction Unit := do
  let faults ← getThe Faults
  match faults.head with
  | some error =>
      set { faults with head := none }
      throw error
  | none => pure ()

/-! ## Runs -/

def findRun (id : RowId) : Transaction (Option Run) := do
  begin
  return (← getThe Store).run? id

def findRunWithKey (key : String) : Transaction (Option Run) := do
  begin
  if ← missesKey then pure none
  else return (← getThe Store).runWithKey? key

def findLatestSucceeded (workspaceId : String) : Transaction (Option Run) := do
  begin
  return (← getThe Store).latestSucceeded? workspaceId

/-- Insert a run. Whichever constraint stands against it, the key counts as taken. -/
def insertRun (draft : RunDraft) : Transaction Run := do
  begin
  let store ← getThe Store
  match draft.withDefaults.toRun (.issued store.issued) with
  | .error _ => throw (.keyTaken draft.key)
  | .ok run =>
      if (store.runWithKey? run.key).isSome then throw (.keyTaken draft.key)
      else
        set { store with runs := store.runs ++ [run], issued := store.issued + 1 }
        pure run

def replaceRun (changed : Run) (runs : List Run) : List Run :=
  runs.map fun run => if run.id = changed.id then changed else run

def patchRun (id : RowId) (change : RunDraft → RunDraft) : Transaction (Option Run) := do
  begin
  let store ← getThe Store
  match store.run? id with
  | none => pure none
  | some run =>
      match (change (RunDraft.ofRun run)).toRun id with
      | .error violation => throw (.constraint (violation.text RunDraft.table))
      | .ok changed =>
          if changed.key ≠ run.key && (store.runWithKey? changed.key).isSome then
            throw (.constraint ((Violation.repeated "idempotency_key").text RunDraft.table))
          else
            set { store with runs := replaceRun changed store.runs }
            pure (some changed)

/-! ## Versions and heads -/

/-- Insert a version with its nodes and edges. Whichever constraint stands against it, the number
counts as taken. -/
def insertVersion (draft : VersionDraft) (snapshot : Snapshot) : Transaction Version := do
  begin
  strikeVersion draft.workspaceId draft.number
  let store ← getThe Store
  match draft.toVersion (.issued store.issued) snapshot with
  | .error _ => throw (.versionTaken draft.workspaceId draft.number)
  | .ok version =>
      if (store.version? version.workspaceId version.number).isSome then
        throw (.versionTaken draft.workspaceId draft.number)
      else
        set { store with versions := store.versions ++ [version], issued := store.issued + 1 }
        pure version

def listVersions (workspaceId : String) : Transaction (List Nat) := do
  begin
  return (← getThe Store).versionNumbers workspaceId

def findHead (workspaceId : String) : Transaction (Option Head) := do
  begin
  return (← getThe Store).head? workspaceId

def setHead (head : Head) : List Head → List Head
  | [] => [head]
  | next :: rest =>
      if next.workspaceId = head.workspaceId then head :: rest else next :: setHead head rest

/-- Set the latest version of a workspace. Neither may be missing. -/
def upsertHead (workspaceId : Option String) (latest : Option Int) : Transaction Head := do
  begin
  strikeHead
  match workspaceId, latest with
  | some name, some number =>
      let head : Head := ⟨name, number⟩
      modifyThe Store fun store => { store with heads := setHead head store.heads }
      pure head
  | _, _ => throw (.versionTaken workspaceId latest)

/-! ## Running -/

def execute {α : Type} (body : Transaction α) (store : Store) (faults : Faults) :
    Except StoreError α × Store × Faults :=
  match (do let value ← body; begin; pure value : Transaction α).run store |>.run |>.run faults with
  | (.ok (value, changed), left) => (.ok value, changed, left)
  | (.error error, left) => (.error error, store, left)

def observe {α : Type} (body : Transaction α) (store : Store) (faults : Faults) :
    Except StoreError α × Faults :=
  match body.run store |>.run |>.run faults with
  | (.ok (value, _), left) => (.ok value, left)
  | (.error error, left) => (.error error, left)

end Transaction

end WorkspaceGraph
