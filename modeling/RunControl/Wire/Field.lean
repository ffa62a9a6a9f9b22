import RunControl.Table
import RunControl.Wire.Key

/-!
Fields of messages.

A field of a record `ρ` knows its number, its name, how it is written, the length of
what is written, and how a payload changes the record. A single value that is the
default is not written; a payload replaces a single value and adds to a list. The
entries of a table are messages of two fields, the key and the value.
-/

namespace RunControl.Wire

open Utf8 (Bytes)

/-- The values of one payload form. -/
structure Payload (α : Type) where
  form : WireType
  zero : α
  isZero : α → Bool
  write : α → Bytes
  size : α → Nat
  /-- Reads over a value that is already there. -/
  read : Nat → α → Bytes → Except DecodeError (α × Bytes)

/-- A field of a record. -/
structure Field (ρ : Type) where
  tag : Nat
  name : String
  write : ρ → Bytes
  size : ρ → Nat
  merge : Nat → WireType → ρ → Bytes → Except DecodeError (ρ × Bytes)

variable {α β ρ : Type}

/-! ### Payloads -/

/-- Bytes with their length in front. -/
def writeDelimited (bytes : Bytes) : Bytes :=
  writeVarint bytes.length ++ bytes

/-- The length of `writeDelimited` for so many bytes. -/
def delimitedSize (length : Nat) : Nat :=
  varintSize length + length

/-- Values that are written as one number. -/
def Payload.ofNumber [DecidableEq α] (zero : α) (toNat : α → Nat) (ofNat : Nat → α) :
    Payload α where
  form := .varint
  zero := zero
  isZero a := a = zero
  write a := writeVarint (toNat a)
  size a := varintSize (toNat a)
  read _ _ bytes := do
    let (n, rest) ← number bytes
    return (ofNat n, rest)

/-- Truth values; every number but zero is true. -/
def Payload.bool : Payload Bool :=
  .ofNumber false Bool.toNat (· != 0)

/-- Integers of 32 bits; a negative one is written as one of 64 bits. -/
def Payload.int32 : Payload Int32 :=
  .ofNumber 0 (fun n => n.toInt64.toUInt64.toNat) Int32.ofNat

/-- Integers of 64 bits. -/
def Payload.int64 : Payload Int64 :=
  .ofNumber 0 (fun n => n.toUInt64.toNat) Int64.ofNat

/-- Counts of 32 bits. -/
def Payload.uint32 : Payload UInt32 :=
  .ofNumber 0 UInt32.toNat UInt32.ofNat

/-- Byte strings. -/
def Payload.bytes : Payload Bytes where
  form := .lengthDelimited
  zero := []
  isZero := List.isEmpty
  write := writeDelimited
  size b := delimitedSize b.length
  read _ _ := delimited

/-- Texts. -/
def Payload.text : Payload String where
  form := .lengthDelimited
  zero := ""
  isZero s := s = ""
  write s := writeDelimited (Utf8.encode s)
  size s := delimitedSize (Utf8.encode s).length
  read _ _ bytes := do
    let (content, rest) ← delimited bytes
    match Utf8.decode? content with
    | some s => return (s, rest)
    | none => fail .notText

/-! ### Records -/

/-- The sizes of a list's items put together. -/
def totalSize (size : α → Nat) (items : List α) : Nat :=
  items.foldr (fun a n => size a + n) 0

/-- The bytes of a record's fields in order. -/
def writeFields (fields : List (Field ρ)) (r : ρ) : Bytes :=
  fields.flatMap fun f => f.write r

/-- The length of `writeFields`. -/
def sizeOfFields (fields : List (Field ρ)) (r : ρ) : Nat :=
  totalSize (fun f => f.size r) fields

/-- Takes one field, key and payload. An error in the payload of a known field goes
through `blame`. -/
def mergeField (fields : List (Field ρ)) (blame : Field ρ → DecodeError → DecodeError)
    (depth : Nat) (r : ρ) (bytes : Bytes) : Except DecodeError (ρ × Bytes) := do
  let (tag, form, rest) ← readKey bytes
  match fields.find? fun f => f.tag = tag with
  | some f => (f.merge depth form r rest).mapError (blame f)
  | none => return (r, ← skipField depth form tag rest)

/-- Takes fields as long as more than `limit` bytes are left. -/
def mergeUntil (step : ρ → Bytes → Except DecodeError (ρ × Bytes)) (limit : Nat) :
    Nat → ρ → Bytes → Except DecodeError (ρ × Bytes)
  | 0, r, bytes => .ok (r, bytes)
  | fuel + 1, r, bytes =>
    if bytes.length ≤ limit then .ok (r, bytes)
    else do
      let (r, rest) ← step r bytes
      mergeUntil step limit fuel r rest

/-- Takes the fields of a record whose length stands in front of it. The fields must
end where the length says. -/
def mergeDelimited (step : ρ → Bytes → Except DecodeError (ρ × Bytes)) (r : ρ) (bytes : Bytes) :
    Except DecodeError (ρ × Bytes) := do
  let (length, rest) ← number bytes
  if rest.length < length then fail .underflow
  else
    let limit := rest.length - length
    let (r, rest) ← mergeUntil step limit rest.length r rest
    if rest.length = limit then .ok (r, rest) else fail .overrun

/-- Goes one level down. -/
def descend (depth : Nat) (inside : Nat → Except DecodeError α) : Except DecodeError α :=
  match depth with
  | 0 => fail .recursion
  | depth + 1 => inside depth

/-! ### Fields -/

/-- The bytes of a field with a payload. -/
def Payload.writeField (p : Payload α) (tag : Nat) (a : α) : Bytes :=
  writeKey tag p.form ++ p.write a

/-- The length of `Payload.writeField`. -/
def Payload.fieldSize (p : Payload α) (tag : Nat) (a : α) : Nat :=
  varintSize (8 * tag) + p.size a

/-- Reads a payload of the right form. -/
def Payload.readAs (p : Payload α) (depth : Nat) (form : WireType) (before : α) (bytes : Bytes) :
    Except DecodeError (α × Bytes) := do
  expect p.form form
  p.read depth before bytes

/-- A field with one value. -/
def Field.single (tag : Nat) (name : String) (p : Payload α) (get : ρ → α) (set : ρ → α → ρ) :
    Field ρ where
  tag := tag
  name := name
  write r := if p.isZero (get r) then [] else p.writeField tag (get r)
  size r := if p.isZero (get r) then 0 else p.fieldSize tag (get r)
  merge depth form r bytes := do
    let (a, rest) ← p.readAs depth form (get r) bytes
    return (set r a, rest)

/-- A field with a list of values, each with its own key. -/
def Field.repeated (tag : Nat) (name : String) (p : Payload α) (get : ρ → List α)
    (set : ρ → List α → ρ) : Field ρ where
  tag := tag
  name := name
  write r := (get r).flatMap (p.writeField tag)
  size r := totalSize (p.fieldSize tag) (get r)
  merge depth form r bytes := do
    let (a, rest) ← p.readAs depth form p.zero bytes
    return (set r (get r ++ [a]), rest)

/-- The fields of a table's entry. -/
def entryFields (p : Payload β) : List (Field (String × β)) :=
  [.single 1 "key" .text Prod.fst fun e k => (k, e.2),
    .single 2 "value" p Prod.snd fun e v => (e.1, v)]

/-- A field with a table, one entry a key. The form of an entry's payload is not
checked, and a later entry replaces an earlier one with the same key. -/
def Field.table (tag : Nat) (name : String) (p : Payload β) (get : ρ → Table β)
    (set : ρ → Table β → ρ) : Field ρ where
  tag := tag
  name := name
  write r := (get r).entries.flatMap fun e =>
    writeKey tag .lengthDelimited ++ writeDelimited (writeFields (entryFields p) e)
  size r := totalSize
    (fun e => varintSize (8 * tag) + delimitedSize (sizeOfFields (entryFields p) e))
    (get r).entries
  merge depth _ r bytes := descend depth fun depth => do
    let (e, rest) ←
      mergeDelimited (mergeField (entryFields p) (fun _ e => e) depth) ("", p.zero) bytes
    return (set r ((get r).insert e.1 e.2), rest)

end RunControl.Wire
