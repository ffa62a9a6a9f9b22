import RunControl.Json.Reader
import RunControl.Text.Visible

/-!
The wording of shape errors.
-/

namespace RunControl.Json

/-- What was found, in words. -/
def Found.describe : Found → String
  | .null => "null"
  | .bool true => "boolean `true`"
  | .bool false => "boolean `false`"
  | .number (.double bits) => "floating point `" ++ String.ofList (writeDouble bits) ++ "`"
  | .number n => "integer `" ++ String.ofList n.write ++ "`"
  | .string s => "string " ++ Text.quoted s
  | .sequence => "sequence"
  | .map => "map"

/-- What was wanted, in words. -/
def Wanted.describe : Wanted → String
  | .text => "a string"
  | .port => "u16"
  | .sequence => "a sequence"
  | .map => "a map"
  | .unit => "unit"
  | .record name => "struct " ++ name

/-- A name in backticks. -/
def ticked (name : String) : String :=
  "`" ++ name ++ "`"

/-- A count of elements in words. -/
def elements (n : Nat) : String :=
  if n = 1 then "1 element" else toString n ++ " elements"

/-- The text of a shape error. -/
def ShapeError.message : ShapeError → String
  | .wrongType found wanted =>
    "invalid type: " ++ found.describe ++ ", expected " ++ wanted.describe
  | .noPort n => "invalid value: " ++ (Found.number n).describe ++ ", expected u16"
  | .missingField name => "missing field " ++ ticked name
  | .duplicateField name => "duplicate field " ++ ticked name
  | .unknownVariant name known =>
    "unknown variant " ++ ticked name ++ ", expected one of " ++
      ", ".intercalate (known.map ticked)
  | .tooShort length record fields =>
    "invalid length " ++ toString length ++ ", expected struct " ++ record ++ " with " ++
      elements fields
  | .tooLong length => "invalid length " ++ toString length ++ ", expected fewer elements in array"

end RunControl.Json
