import RunControl.Deployment.Component
import RunControl.Deployment.Script

/-!
Deployment descriptions: the components and scripts of one deployment, and the
restriction to some of them by name.
-/

namespace RunControl

/-- A deployment. -/
structure Deployment where
  components : List Component
  scripts : List Script
  deriving Repr

namespace Deployment

/-- The deployment without components and scripts. -/
def empty : Deployment :=
  ⟨[], []⟩

/-- Reads a deployment. -/
def reader : Json.Reader Deployment :=
  .record "Deployment" <|
    mk <$> .optional "components" (Json.list Component.reader) []
      <*> .optional "scripts" (Json.list Script.reader) []

/-- Whether a name passes a filter; a filter without names passes all. -/
def passes (only : List String) (name : String) : Bool :=
  only.isEmpty || only.contains name

/-- The components and scripts whose names pass a filter, in the same order. -/
def restrict (only : List String) (d : Deployment) : Deployment :=
  ⟨d.components.filter fun c => passes only c.name, d.scripts.filter fun s => passes only s.name⟩

end Deployment

end RunControl
