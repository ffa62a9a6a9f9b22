import RunControl.Json.Reader

/-!
Components: the deployed processes that take run commands, with their modules and log
levels.

Members that the control plane does not know are kept, so the document that configures
a component carries everything its description held.
-/

namespace RunControl

/-! ### Log levels -/

/-- The log levels of a component's three parts. -/
structure LogLevels where
  core : String
  module : String
  connection : String
  deriving DecidableEq, Repr

namespace LogLevels

/-- The level of a part that names none. -/
def usual : String := "INFO"

/-- The levels of a component that names none. -/
def default : LogLevels :=
  ⟨usual, usual, usual⟩

/-- Reads log levels. -/
def reader : Json.Reader LogLevels :=
  .record "LogLevels" <|
    mk <$> .optional "core" Json.text usual <*> .optional "module" Json.text usual
      <*> .optional "connection" Json.text usual

/-- The JSON object of log levels. -/
def toJson (l : LogLevels) : Json :=
  .object [("core", .string l.core), ("module", .string l.module),
    ("connection", .string l.connection)]

end LogLevels

/-! ### Modules -/

/-- A module of a component, with settings that are passed on untouched. -/
structure Module where
  name : String
  extra : Table Json
  deriving Repr

namespace Module

/-- Reads a module. -/
def reader : Json.Reader Module :=
  .openRecord "Module" (mk <$> .required "name" Json.text)

/-- The JSON object of a module: its name, then the rest in key order. -/
def toJson (m : Module) : Json :=
  .object (("name", .string m.name) :: m.extra.entries)

end Module

/-! ### Components -/

/-- A component and where it takes commands. -/
structure Component where
  name : String
  host : String
  port : UInt16
  logLevels : LogLevels
  modules : List Module
  extra : Table Json
  deriving Repr

namespace Component

/-- The names of the modules in declaration order; a name may occur more than once. -/
def moduleNames (c : Component) : List String :=
  c.modules.map Module.name

/-- Reads a component. -/
def reader : Json.Reader Component :=
  .openRecord "Component" <|
    mk <$> .required "name" Json.text <*> .required "host" Json.text
      <*> .required "port" Json.port <*> .optional "loglevel" LogLevels.reader .default
      <*> .optional "modules" (Json.list Module.reader) []

/-- The JSON object of a component: its fields, then the rest in key order. -/
def toJson (c : Component) : Json :=
  .object <|
    [("name", .string c.name), ("host", .string c.host), ("port", .ofNat c.port.toNat),
      ("loglevel", c.logLevels.toJson), ("modules", .array (c.modules.map Module.toJson))] ++
    c.extra.entries

end Component

end RunControl
