import RunControl.Json.Printer
import RunControl.Rpc.Error

/-!
What an invocation reports: documents and, if it failed, the reason and what caused it.
-/

namespace RunControl.Cli

/-- Why an invocation failed. -/
inductive Failure where
  /-- The command needs a deployment and none was named. -/
  | noDeployment
  /-- The file at a path could not be read. -/
  | unreadable (path cause : String)
  /-- The text of the file is no deployment. -/
  | malformed (path cause : String)
  /-- These components did not carry out the command. -/
  | commandFailed (components : List String)
  /-- Not all components could be added. -/
  | notAllAdded (added : Nat) (wanted : Nat)
  | rpc (e : RpcError)
  deriving DecidableEq, Repr

/-- A message with its cause behind it, every line of the cause indented. -/
def withCause (message cause : String) : String :=
  let lines := cause.toList.flatMap fun c => if c = '\n' then "\n    ".toList else [c]
  message ++ "\n\nCaused by:\n    " ++ String.ofList lines

/-- The text of a failure. -/
def Failure.message : Failure → String
  | .noDeployment => "--deployment is required for this command"
  | .unreadable path cause => withCause ("read deployment " ++ path) cause
  | .malformed path cause => withCause ("parse deployment " ++ path) cause
  | .commandFailed components => "command failed for: " ++ ", ".intercalate components
  | .notAllAdded added wanted => toString added ++ " of " ++ toString wanted ++ " components added"
  | .rpc e => e.message

/-- What an invocation reports. -/
structure Report where
  documents : List Json
  failure : Option Failure
  deriving Repr

namespace Report

/-- The report of one document. -/
def ofDocument (j : Json) : Report :=
  ⟨[j], none⟩

/-- The report of a failure without any document. -/
def ofFailure (f : Failure) : Report :=
  ⟨[], some f⟩

end Report

end RunControl.Cli
