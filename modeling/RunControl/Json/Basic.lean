import RunControl.Table

/-!
JSON values.

Numbers keep the form they were read in: counts of 64 bits, negative integers of 64
bits, and doubles for everything else. Objects list their members in the order in
which they are written.
-/

namespace RunControl

/-- A JSON number. -/
inductive Json.Number where
  /-- An integer from 0 to 2^64 - 1. -/
  | natural (n : UInt64)
  /-- An integer from -2^63 to -1. -/
  | negative (n : Int64)
  /-- A finite double, by its bits. -/
  | double (bits : UInt64)
  deriving DecidableEq, Repr

/-- A JSON value. -/
inductive Json where
  | null
  | bool (b : Bool)
  | number (n : Json.Number)
  | string (s : String)
  | array (items : List Json)
  | object (members : List (String × Json))
  deriving Repr, Inhabited

namespace Json

/-- The number of a count; counts above 2^64 - 1 do not occur. -/
def ofNat (n : Nat) : Json :=
  .number (.natural (UInt64.ofNat n))

/-- The number of an integer of 64 bits. -/
def ofInt (n : Int) : Json :=
  if n < 0 then .number (.negative (Int64.ofInt n)) else ofNat n.toNat

/-- The array of texts. -/
def ofTexts (texts : List String) : Json :=
  .array (texts.map .string)

/-- The object of a table, with its members in key order. -/
def ofTable (t : Table Json) : Json :=
  .object t.entries

/-- The object of a table of texts. -/
def ofTextTable (t : Table String) : Json :=
  ofTable (t.map .string)

/-- The value of an object's first member with this name. -/
def member? (name : String) : Json → Option Json
  | .object members => (members.find? fun m => m.1 = name).map (·.2)
  | _ => none

end Json

end RunControl
