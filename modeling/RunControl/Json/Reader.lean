import RunControl.Json.Doc

/-!
Reading typed values from outlines.

A `Reader` walks over an outline in reading order and stops at the first thing that is
wrong. A `Record` describes an object with named fields: each member is checked as it
is met, a field that is missing shows only when the whole object was read, and of
several missing fields the first in the record's order counts. Except for open
records, which keep the members they do not know, a record may also be written as the
array of its fields.
-/

namespace RunControl.Json

/-- What stands in a text, as far as a reader that wants something else looks at it. -/
inductive Found where
  | null
  | bool (b : Bool)
  | number (n : Number)
  | string (s : String)
  | sequence
  | map
  deriving DecidableEq, Repr

/-- What a reader wants. -/
inductive Wanted where
  | text
  | port
  | sequence
  | map
  | unit
  | record (name : String)
  deriving DecidableEq, Repr

/-- How a value can have the wrong shape. -/
inductive ShapeError where
  | wrongType (found : Found) (wanted : Wanted)
  /-- An integer outside the range of a port. -/
  | noPort (n : Number)
  | missingField (name : String)
  | duplicateField (name : String)
  | unknownVariant (name : String) (known : List String)
  /-- An array that ends before a field that must be given. -/
  | tooShort (length : Nat) (record : String) (fields : Nat)
  /-- An array that goes on after the last field. -/
  | tooLong (length : Nat)
  deriving DecidableEq, Repr

/-- Why a text or an outline is not read. -/
inductive ReadError where
  | broken (fault : Fault)
  | shape (error : ShapeError)
  deriving DecidableEq, Repr

/-- Reads an outline with so many levels of nesting left. -/
abbrev Reader (α : Type) := Nat → Doc → Except ReadError α

/-- A part of the text itself. -/
def ofFault {α : Type} (r : Except Fault α) : Except ReadError α :=
  r.mapError .broken

/-- What a reader reports that wanted something else. Arrays and objects are not
looked into. -/
def mismatch (wanted : Wanted) (d : Doc) : ReadError :=
  let report {α : Type} (value : Except Fault α) (found : α → Found) : ReadError :=
    match value with
    | .error f => .broken f
    | .ok a => .shape (.wrongType (found a) wanted)
  match d with
  | .absent f => .broken f
  | .word w => report w.value fun
    | .null => .null
    | .true => .bool true
    | .false => .bool false
  | .number n => report n.value .number
  | .string s => report s.value .string
  | .array .. => .shape (.wrongType .sequence wanted)
  | .object .. => .shape (.wrongType .map wanted)

/-! ### Readers -/

/-- Reads a text. -/
def text : Reader String
  | _, .string s => ofFault s.value
  | _, d => .error (mismatch .text d)

/-- Reads an integer from 0 to 65535. -/
def port : Reader UInt16
  | _, .number n => do
    match ← ofFault n.value with
    | .natural v =>
      if v.toNat < UInt16.size then .ok (UInt16.ofNat v.toNat)
      else .error (.shape (.noPort (.natural v)))
    | .negative v => .error (.shape (.noPort (.negative v)))
    | .double v => .error (.shape (.wrongType (.number (.double v)) .port))
  | _, d => .error (mismatch .port d)

/-- Enters an array or object. -/
def enter {α : Type} (room : Nat) (inside : Nat → Except ReadError α) : Except ReadError α :=
  match room with
  | 0 => .error (.broken .malformed)
  | room + 1 => inside room

/-- Reads an array of values. -/
def list {α : Type} (item : Reader α) : Reader (List α)
  | room, .array items stop => enter room fun room => do
    let values ← items.mapM (item room)
    ofFault (close stop values)
  | _, d => .error (mismatch .sequence d)

/-- Reads an object of values; a repeated name keeps its last value. -/
def table {α : Type} (item : Reader α) : Reader (Table α)
  | room, .object members stop => enter room fun room => do
    let entries ← members.mapM fun (key, d) => do
      let k ← ofFault key.value
      let v ← item room d
      return (k, v)
    ofFault (close stop (Table.ofList entries))
  | _, d => .error (mismatch .map d)

/-! ### Names as values -/

/-- One of several names. -/
def known (names : List String) (given : String) : Except ReadError String :=
  if names.contains given then .ok given else .error (.shape (.unknownVariant given names))

/-- The value beside a name that is given as a member. -/
def unit : Doc → Except ReadError Unit
  | .word ⟨.ok .null, _⟩ => .ok ()
  | d => .error (mismatch .unit d)

/-- Reads one of several names, given as a string or as an object with the name as its
only member and `null` as the value. -/
def name (names : List String) : Reader String
  | _, .string s => do known names (← ofFault s.value)
  | _, .object [] stop => .error (.broken (stop.getD .malformed))
  | room, .object (member :: more) stop => enter room fun _ => do
    let given ← known names (← ofFault member.1.value)
    unit member.2
    if more.isEmpty then ofFault (close stop given) else .error (.broken .malformed)
  | _, .absent f => .error (.broken f)
  | _, _ => .error (.broken .malformed)

/-! ### Records -/

/-- A field of a record, with the check of its value. -/
structure Field where
  name : String
  required : Bool
  check : Nat → Doc → Except ReadError Unit

/-- A record: its fields in order, and its value from the fields that were given. -/
structure Record (α : Type) where
  fields : List Field
  build : Nat → (String → Option Doc) → Except ReadError α

namespace Record

variable {α β : Type}

/-- The record without fields. -/
def pure (a : α) : Record α :=
  ⟨[], fun _ _ => .ok a⟩

/-- The fields of one record, then those of another. -/
def seq (f : Record (α → β)) (a : Unit → Record α) : Record β :=
  ⟨f.fields ++ (a ()).fields, fun room given => do
    let g ← f.build room given
    let x ← (a ()).build room given
    return g x⟩

instance : Applicative Record where
  pure := pure
  seq := seq

/-- A field that must be given. -/
def required (name : String) (value : Reader α) : Record α :=
  ⟨[⟨name, true, fun room d => do let _ ← value room d⟩], fun room given =>
    match given name with
    | some d => value room d
    | none => .error (.shape (.missingField name))⟩

/-- A field that has a value when it is not given. -/
def optional (name : String) (value : Reader α) (default : α) : Record α :=
  ⟨[⟨name, false, fun room d => do let _ ← value room d⟩], fun room given =>
    match given name with
    | some d => value room d
    | none => .ok default⟩

/-- The value that was given for a field. -/
def givenIn (given : List (String × Doc)) (name : String) : Option Doc :=
  (given.find? fun g => g.1 = name).map (·.2)

/-- Checks members in order. A member that is no field goes to `other`. -/
def checkMembers (fields : List Field) (room : Nat) (other : String → Doc → Except ReadError Unit)
    (given : List (String × Doc)) :
    List (Token String × Doc) → Except ReadError (List (String × Doc))
  | [] => .ok given
  | (key, d) :: r => do
    let k ← ofFault key.value
    match fields.find? fun f => f.name = k with
    | some f =>
      if (givenIn given k).isSome then .error (.shape (.duplicateField k))
      else
        f.check room d
        checkMembers fields room other ((k, d) :: given) r
    | none =>
      other k d
      checkMembers fields room other given r

/-- Checks the items of an array against the fields in order. -/
def checkItems (name : String) (total : Nat) (room : Nat) (stop : Option Fault)
    (given : List (String × Doc)) (index : Nat) :
    List Field → List Doc → Except ReadError (List (String × Doc))
  | [], [] => ofFault (close stop given)
  | [], more => .error (.shape (.tooLong (index + more.length)))
  | f :: fields, d :: items => do
    f.check room d
    checkItems name total room stop ((f.name, d) :: given) (index + 1) fields items
  | f :: fields, [] => do
    ofFault (close stop ())
    if f.required then .error (.shape (.tooShort index name total))
    else checkItems name total room stop given (index + 1) fields []

/-- Skips a member. -/
def skip (_ : String) (d : Doc) : Except ReadError Unit :=
  match d.fault? with
  | some f => .error (.broken f)
  | none => .ok ()

/-- The members that are no fields, a repeated one with its last value. -/
def others (fields : List Field) (room : Nat) (members : List (Token String × Doc)) :
    Table Json :=
  .ofList (members.filterMap fun (key, d) =>
    match key.value, d.toJson room with
    | .ok k, .ok j => if fields.any fun f => f.name = k then none else some (k, j)
    | _, _ => none)

end Record

/-- Reads a record that skips the members it does not know. -/
def Reader.record {α : Type} (name : String) (r : Record α) : Reader α
  | room, .object members stop => enter room fun room => do
    let given ← Record.checkMembers r.fields room Record.skip [] members
    ofFault (close stop ())
    r.build room (Record.givenIn given)
  | room, .array items stop => enter room fun room => do
    let given ← Record.checkItems name r.fields.length room stop [] 0 r.fields items
    r.build room (Record.givenIn given)
  | _, d => .error (mismatch (.record name) d)

/-- Reads a record that keeps the members it does not know. -/
def Reader.openRecord {α : Type} (name : String) (r : Record (Table Json → α)) : Reader α
  | room, .object members stop => enter room fun room => do
    let given ← Record.checkMembers r.fields room
      (fun _ d => do let _ ← ofFault (d.toJson room)) [] members
    ofFault (close stop ())
    let make ← r.build room (Record.givenIn given)
    return make (Record.others r.fields room members)
  | _, d => .error (mismatch (.record name) d)

/-! ### Whole texts and values -/

/-- Reads a whole text. To a text that goes on where it should end, an array that is
too long is malformed. -/
def Reader.ofText {α : Type} (r : Reader α) (s : String) : Except ReadError α := do
  let o := outline s
  match r depthLimit o.doc with
  | .error (.shape (.tooLong _)) => .error (.broken .malformed)
  | .error e => .error e
  | .ok a => if o.clean then .ok a else .error (.broken .malformed)

/-- Reads a value. -/
def Reader.ofJson {α : Type} (r : Reader α) (j : Json) : Except ReadError α :=
  r depthLimit j.toDoc

end RunControl.Json
