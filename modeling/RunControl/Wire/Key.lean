import RunControl.Wire.Varint

/-!
Keys of fields, the ways a message can be ill-formed, and the skipping of fields.

A key holds the number of a field and the form of its payload. Every length is
checked against all the bytes left, so a field inside a message may run over the end
of that message; this shows when the message is closed.
-/

namespace RunControl.Wire

open Utf8 (Bytes)

/-- The forms of payloads. -/
inductive WireType where
  | varint
  | sixtyFourBit
  | lengthDelimited
  | startGroup
  | endGroup
  | thirtyTwoBit
  deriving DecidableEq, Repr

/-- The code of a form. -/
def WireType.code : WireType → Nat
  | .varint => 0
  | .sixtyFourBit => 1
  | .lengthDelimited => 2
  | .startGroup => 3
  | .endGroup => 4
  | .thirtyTwoBit => 5

/-- The form with a code. -/
def WireType.ofCode? : Nat → Option WireType
  | 0 => some .varint
  | 1 => some .sixtyFourBit
  | 2 => some .lengthDelimited
  | 3 => some .startGroup
  | 4 => some .endGroup
  | 5 => some .thirtyTwoBit
  | _ => none

@[simp]
theorem WireType.ofCode?_code (w : WireType) : WireType.ofCode? w.code = some w := by
  cases w <;> rfl

/-- The name of a form in messages. -/
def WireType.name : WireType → String
  | .varint => "Varint"
  | .sixtyFourBit => "SixtyFourBit"
  | .lengthDelimited => "LengthDelimited"
  | .startGroup => "StartGroup"
  | .endGroup => "EndGroup"
  | .thirtyTwoBit => "ThirtyTwoBit"

/-- How bytes can fail to be a message. -/
inductive Defect where
  | varint
  | keyValue (n : Nat)
  | wireTypeValue (n : Nat)
  | fieldZero
  | wireType (found wanted : WireType)
  /-- A length goes beyond the last byte. -/
  | underflow
  /-- A field goes beyond the end of its message. -/
  | overrun
  | endGroup
  | recursion
  | notText
  deriving DecidableEq, Repr

/-- The text of a defect. -/
def Defect.message : Defect → String
  | .varint => "invalid varint"
  | .keyValue n => "invalid key value: " ++ toString n
  | .wireTypeValue n => "invalid wire type value: " ++ toString n
  | .fieldZero => "invalid tag value: 0"
  | .wireType found wanted =>
    "invalid wire type: " ++ found.name ++ " (expected " ++ wanted.name ++ ")"
  | .underflow => "buffer underflow"
  | .overrun => "delimited length exceeded"
  | .endGroup => "unexpected end group tag"
  | .recursion => "recursion limit reached"
  | .notText => "invalid string value: data is not UTF-8 encoded"

/-- A defect and the fields around it, innermost first, each with its message. -/
structure DecodeError where
  path : List (String × String)
  defect : Defect
  deriving DecidableEq, Repr

/-- The text of an error. -/
def DecodeError.message (e : DecodeError) : String :=
  "failed to decode Protobuf message: " ++
    String.join (e.path.map fun (record, field) => record ++ "." ++ field ++ ": ") ++
    e.defect.message

/-- Fails outside of any field. -/
def fail {α : Type} (d : Defect) : Except DecodeError α :=
  .error ⟨[], d⟩

/-- A number, and the bytes after it. -/
def number (bytes : Bytes) : Except DecodeError (Nat × Bytes) :=
  match readVarint bytes with
  | some r => .ok r
  | none => fail .varint

/-- The bytes of a key. -/
def writeKey (tag : Nat) (form : WireType) : Bytes :=
  writeVarint (8 * tag + form.code)

/-- A key, and the bytes after it. -/
def readKey (bytes : Bytes) : Except DecodeError (Nat × WireType × Bytes) := do
  let (key, rest) ← number bytes
  if UInt32.size ≤ key then fail (.keyValue key)
  else
    match WireType.ofCode? (key % 8) with
    | none => fail (.wireTypeValue (key % 8))
    | some form => if key / 8 = 0 then fail .fieldZero else .ok (key / 8, form, rest)

/-- Requires a form of payload. -/
def expect (wanted found : WireType) : Except DecodeError Unit :=
  if found = wanted then .ok () else fail (.wireType found wanted)

/-- The bytes that a length in front of them takes, and those after them. -/
def delimited (bytes : Bytes) : Except DecodeError (Bytes × Bytes) := do
  let (length, rest) ← number bytes
  if rest.length < length then fail .underflow
  else .ok (rest.take length, rest.drop length)

/-! ### Skipping -/

/-- The bytes after so many others. -/
def advance (length : Nat) (bytes : Bytes) : Except DecodeError Bytes :=
  if bytes.length < length then fail .underflow else .ok (bytes.drop length)

mutual

/-- The bytes after the payload of a field. Groups nest up to `depth`; the fuel bounds
the number of keys. -/
def skip : Nat → Nat → WireType → Nat → Bytes → Except DecodeError Bytes
  | 0, _, _, _, _ => fail .varint
  | fuel + 1, depth, form, tag, bytes =>
    match depth with
    | 0 => fail .recursion
    | depth + 1 =>
      match form with
      | .varint => do return (← number bytes).2
      | .thirtyTwoBit => advance 4 bytes
      | .sixtyFourBit => advance 8 bytes
      | .lengthDelimited => do
        let (length, rest) ← number bytes
        advance length rest
      | .startGroup => skipGroup fuel depth tag bytes
      | .endGroup => fail .endGroup

/-- The bytes after the fields of a group and its end. -/
def skipGroup : Nat → Nat → Nat → Bytes → Except DecodeError Bytes
  | 0, _, _, _ => fail .varint
  | fuel + 1, depth, tag, bytes => do
    let (inner, form, rest) ← readKey bytes
    if form = .endGroup then
      if inner = tag then .ok rest else fail .endGroup
    else skipGroup fuel depth tag (← skip fuel depth form inner rest)

end

/-- The bytes after the payload of a field that is not known. -/
def skipField (depth : Nat) (form : WireType) (tag : Nat) (bytes : Bytes) :
    Except DecodeError Bytes :=
  skip (2 * bytes.length + 2) depth form tag bytes

/-- How deep messages and groups may nest. -/
def depthLimit : Nat := 100

end RunControl.Wire
