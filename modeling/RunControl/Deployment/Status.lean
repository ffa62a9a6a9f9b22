import RunControl.Deployment.Component

/-!
Status reports: one entry per declared module of a component, in declaration order.
-/

namespace RunControl

/-- The state of one module. -/
structure ModuleStatus where
  module : String
  state : String
  deriving DecidableEq, Repr

namespace ModuleStatus

/-- Reads an entry. -/
def reader : Json.Reader ModuleStatus :=
  .record "ModuleStatus" (mk <$> .required "module" Json.text <*> .required "state" Json.text)

/-- The JSON object of an entry. -/
def toJson (s : ModuleStatus) : Json :=
  .object [("module", .string s.module), ("state", .string s.state)]

end ModuleStatus

/-- The module states of one component. -/
structure StatusReport where
  entries : List ModuleStatus
  deriving DecidableEq, Repr

namespace StatusReport

/-- The state of modules of which nothing better is known. -/
def unknown : String := "unknown"

/-- The state of modules whose process is registered but does not answer. -/
def added : String := "added"

/-- The state of modules whose process is not registered. -/
def notAdded : String := "not_added"

/-- The same state for every declared module. -/
def uniform (c : Component) (state : String) : StatusReport :=
  ⟨c.moduleNames.map fun m => ⟨m, state⟩⟩

/-- The states in order. -/
def states (r : StatusReport) : List String :=
  r.entries.map ModuleStatus.state

/-- Reads a report. -/
def reader : Json.Reader StatusReport :=
  .record "StatusReport" (mk <$> .required "entries" (Json.list ModuleStatus.reader))

/-- The JSON object of a report. -/
def toJson (r : StatusReport) : Json :=
  .object [("entries", .array (r.entries.map ModuleStatus.toJson))]

end StatusReport

end RunControl
