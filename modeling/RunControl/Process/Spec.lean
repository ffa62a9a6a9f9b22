import RunControl.Json.Reader
import RunControl.Text.Blank

/-!
What a supervisor needs to launch one managed process.

The texts of a specification may hold placeholders, which the supervisor expands on
its host; `ProcessSpec.mapTemplates` expands them here. `ProcessSpec.settings` is the
program as it is submitted.
-/

namespace RunControl

/-- The specification of a managed process. -/
structure ProcessSpec where
  name : String
  executable : String
  directory : String
  /-- The launcher put before the executable; it may be empty. -/
  command : String
  environment : Table String
  logFile : String
  user : String
  deriving DecidableEq, Repr

namespace ProcessSpec

/-- The command line: the launcher, a space, and the executable in its directory,
without blanks at the start. -/
def commandLine (s : ProcessSpec) : String :=
  String.ofList (Text.trimStart (s.command ++ " " ++ s.directory ++ s.executable).toList)

/-- The variables as `KEY=value`, in key order, with commas between them. -/
def environmentLine (s : ProcessSpec) : String :=
  ",".intercalate (s.environment.entries.map fun (k, v) => k ++ "=" ++ v)

/-- The settings of the program that is submitted for the process. The process is not
restarted on its own, its log is neither cut nor rotated and takes both output
streams, and an empty environment or user is left out. -/
def settings (s : ProcessSpec) : Table String :=
  .ofList <|
    [("command", s.commandLine), ("directory", s.directory), ("autorestart", "false"),
      ("startretries", "0")] ++
    (if s.environment.isEmpty then [] else [("environment", s.environmentLine)]) ++
    (if s.user.isEmpty then [] else [("user", s.user)]) ++
    [("stdout_logfile", s.logFile), ("stdout_logfile_maxbytes", "0"),
      ("stdout_logfile_backups", "0"), ("stderr_logfile", s.logFile)]

/-- Applies a function to every text that may hold placeholders. -/
def mapTemplates (f : String → String) (s : ProcessSpec) : ProcessSpec :=
  { s with
    executable := f s.executable
    directory := f s.directory
    command := f s.command
    environment := s.environment.map f
    logFile := f s.logFile }

/-! ### JSON -/

/-- Reads a specification; every field must be given. -/
def reader : Json.Reader ProcessSpec :=
  .record "ManagedProcessSpec" <|
    mk <$> .required "name" Json.text <*> .required "executable" Json.text
      <*> .required "directory" Json.text <*> .required "command" Json.text
      <*> .required "environment" (Json.table Json.text) <*> .required "log_file" Json.text
      <*> .required "user" Json.text

/-- The JSON object of a specification. -/
def toJson (s : ProcessSpec) : Json :=
  .object [("name", .string s.name), ("executable", .string s.executable),
    ("directory", .string s.directory), ("command", .string s.command),
    ("environment", .ofTextTable s.environment), ("log_file", .string s.logFile),
    ("user", .string s.user)]

end ProcessSpec

end RunControl
