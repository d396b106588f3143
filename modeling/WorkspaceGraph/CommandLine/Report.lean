import WorkspaceGraph.CommandLine.Arguments
import WorkspaceGraph.Log.Record
/-!
What a command leaves behind: an exit code, and what it wrote to its two streams.
-/

namespace WorkspaceGraph.CommandLine

structure Report where
  exit : Nat
  output : String
  errors : String
deriving DecidableEq, Repr

/-- How the call of a command ends. Asked for help it does nothing else, and it does nothing at all
with arguments it cannot use. -/
inductive Ending (α : Type)
  | help
  | misused (misuse : Misuse)
  | ran (result : α)
deriving DecidableEq, Repr

def call {α β : Type} (switches : List Switch) (make : Arguments → Except Misuse α)
    (run : α → β) (arguments : List String) : Ending β :=
  match Arguments.parse (⟨"help", none, false⟩ :: switches) arguments with
  | .error misuse => .misused misuse
  | .ok arguments =>
      if arguments.has "help" then .help
      else
        match make arguments with
        | .error misuse => .misused misuse
        | .ok command => .ran (run command)

def misuseCode : Nat := 2

def Ending.exit {α : Type} (exit : α → Nat) : Ending α → Nat
  | help => 0
  | misused _ => misuseCode
  | ran result => exit result

def lines (texts : List String) : String := String.join (texts.map (· ++ "\n"))

def logLines (threshold : Log.Level) (entries : List Log.Entry) : List String :=
  (entries.filter fun entry => entry.level.reaches threshold).map Log.Entry.line

end WorkspaceGraph.CommandLine
