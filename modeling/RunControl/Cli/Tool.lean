import RunControl.Cli.Arguments
import RunControl.Cli.Run

/-!
The tool as a whole: from its arguments to what it prints and its exit code.

The exit code is 0 for success, 1 for a failure and 2 for arguments that make no
invocation.
-/

namespace RunControl.Cli

/-- How a run of the tool ends. -/
structure Outcome where
  exitCode : UInt32
  output : String
  errorOutput : String
  deriving DecidableEq, Repr

/-- The answer to the switch for the version. -/
def versionLine : String :=
  "daqctl 0.2.0\n"

/-- The lines of the answer to the switch for help. -/
def usageLines : List String :=
  ["Control a supervised DAQ deployment",
    "",
    "Usage: daqctl [OPTIONS] <COMMAND>",
    "",
    "Commands:",
    "  add                  Register component processes without starting them",
    "  add-scripts          Register auxiliary scripts",
    "  boot                 Start registered component processes",
    "  remove               Remove component processes (--extra <NAME>: and these on each host)",
    "  configure            Send each component its description",
    "  unconfigure          Take the descriptions back",
    "  start                Start a run (--run <NUMBER>)",
    "  stop                 Stop the run",
    "  shutdown             Shut the modules down",
    "  custom <NAME> [ARG]  Send a custom command to each component",
    "  status               Print the states of the modules",
    "  pids <HOST>          List process ids of the group on a host",
    "",
    "Options:",
    "  -d, --deployment <PATH>  Deployment description: JSON object of components and scripts",
    "  -g, --group <GROUP>      Supervisor group",
    "  -c, --component <NAME>   Restrict the command to these components",
    "  -h, --help               Print help",
    "  -V, --version            Print version"]

/-- The answer to the switch for help. -/
def usage : String :=
  String.join (usageLines.map (· ++ "\n"))

/-- The outcome when no invocation was read. -/
def Ending.outcome : Ending → Outcome
  | .misuse m => ⟨2, "", "error: " ++ m.message ++ "\n"⟩
  | .help => ⟨0, usage, ""⟩
  | .version => ⟨0, versionLine, ""⟩

/-- The outcome of a report: every document ends its line, and so does a failure. -/
def Report.outcome (r : Report) : Outcome :=
  let output := String.join (r.documents.map fun j => j.pretty ++ "\n")
  match r.failure with
  | none => ⟨0, output, ""⟩
  | some f => ⟨1, output, "Error: " ++ f.message ++ "\n"⟩

/-- Runs the tool. -/
def tool (c : Config) (files : FileReader) (arguments : List String)
    (diagnosis : Diagnosis := default) : Plan Outcome :=
  match Invocation.ofArguments arguments with
  | .ok i => do return (← i.perform c files diagnosis).outcome
  | .error ending => return ending.outcome

end RunControl.Cli
