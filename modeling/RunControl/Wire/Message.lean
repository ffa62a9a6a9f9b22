import RunControl.Wire.Field

/-!
Messages: records with a name and fields in ascending order of their numbers.

`Message.encode` writes a record and `Message.decode` reads one, whatever the order
of its fields, over repeated and unknown ones.
-/

namespace RunControl.Wire

open Utf8 (Bytes)

/-- A kind of message. -/
structure Message (ρ : Type) where
  name : String
  /-- The record of which nothing is written. -/
  blank : ρ
  fields : List (Field ρ)

namespace Message

variable {ρ : Type}

/-- The bytes of a record. -/
def encode (m : Message ρ) (r : ρ) : Bytes :=
  writeFields m.fields r

/-- The length of `encode`, computed without writing. -/
def encodedSize (m : Message ρ) (r : ρ) : Nat :=
  sizeOfFields m.fields r

/-- Puts the message and a field before what went wrong inside it. -/
def blame (m : Message ρ) (f : Field ρ) (e : DecodeError) : DecodeError :=
  { e with path := e.path ++ [(m.name, f.name)] }

/-- Takes one field of a record. -/
def merge (m : Message ρ) (depth : Nat) (r : ρ) (bytes : Bytes) : Except DecodeError (ρ × Bytes) :=
  mergeField m.fields m.blame depth r bytes

/-- The record that a whole byte string holds. -/
def decode (m : Message ρ) (bytes : Bytes) : Except DecodeError ρ := do
  let (r, _) ← mergeUntil (m.merge depthLimit) 0 bytes.length m.blank bytes
  return r

/-- The message as a payload of a field. It is written with its length in front, and
what is read adds to what is there. -/
def payload [DecidableEq ρ] (m : Message ρ) : Payload ρ where
  form := .lengthDelimited
  zero := m.blank
  isZero r := r = m.blank
  write r := writeDelimited (m.encode r)
  size r := delimitedSize (m.encodedSize r)
  read depth r bytes := descend depth fun depth => mergeDelimited (m.merge depth) r bytes

end Message

end RunControl.Wire
