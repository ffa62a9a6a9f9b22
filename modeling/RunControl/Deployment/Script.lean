import RunControl.Json.Reader

/-!
Scripts: auxiliary processes that run next to components.
-/

namespace RunControl

/-- An auxiliary process. -/
structure Script where
  name : String
  host : String
  command : String
  executable : String
  directory : String
  deriving DecidableEq, Repr

namespace Script

/-- Reads a script. -/
def reader : Json.Reader Script :=
  .record "Script" <|
    mk <$> .required "name" Json.text <*> .required "host" Json.text
      <*> .optional "command" Json.text "" <*> .required "executable" Json.text
      <*> .optional "directory" Json.text ""

/-- The JSON object of a script. -/
def toJson (s : Script) : Json :=
  .object [("name", .string s.name), ("host", .string s.host), ("command", .string s.command),
    ("executable", .string s.executable), ("directory", .string s.directory)]

end Script

end RunControl
