import RunControl.Cli.Tool
import RunControl.Json.Message
import RunControl.Rpc.Transport

/-!
The entry point of `daqctl`: the arguments, the environment and the deployment file
come in, and the outcome goes out.

No connection is made from here. The calls run over a network on which every
connection is refused, so each call fails as it does when nothing listens.
-/

namespace RunControl.Cli

/-- The text of a file, or why it cannot be read. -/
def readText (path : String) : IO (Except String String) := do
  try
    match Utf8.decode? (← IO.FS.readBinFile path).toList with
    | some text => return .ok text
    | none => return .error "stream did not contain valid UTF-8"
  catch e =>
    return .error (toString e)

/-- What is wrong with the one file that is read. -/
def diagnosis (reason : String) : Diagnosis where
  unreadable _ := reason
  malformed _ e := match e with
    | .broken .ended => "EOF while parsing a value"
    | .broken .malformed => "expected value"
    | .shape error => error.message

/-- The values of the variables that a configuration is taken from. -/
def readEnvironment : IO (List (String × Option String)) :=
  Config.variableNames.mapM fun name => do
    return (name, ← IO.getEnv name)

/-- The text of the deployment that the arguments name. -/
def readDeployment (arguments : List String) : IO (Except String String) :=
  match Invocation.ofArguments arguments with
  | .ok i =>
    match i.deployment with
    | some path => readText path
    | none => return .error ""
  | .error _ => return .error ""

/-- Runs the tool. Without connections no log file is ever named, so its stamp does not
matter. -/
def runTool (arguments : List String) : IO UInt32 := do
  let environment ← readEnvironment
  let config := Config.ofEnvironment fun name =>
    (environment.lookup name).join.map Utf8.encode
  let text ← readDeployment arguments
  let answer := Transport.answer Transport.disconnected config.supervisorPort "00000000000000"
  let reason := match text with
    | .ok _ => ""
    | .error reason => reason
  let run := tool config (fun _ => text.toOption) arguments (diagnosis reason)
  let (outcome, ()) := run.run answer ()
  IO.print outcome.output
  IO.eprint outcome.errorOutput
  return outcome.exitCode

end RunControl.Cli

def main (arguments : List String) : IO UInt32 :=
  RunControl.Cli.runTool arguments
