import RunControl.Json.Numeral
import RunControl.Text.Utf8

/-!
The outline of a JSON text: what stands in it, in reading order, up to the place
where the text breaks.

A reader that is looking for a value of some shape walks over the outline and stops
at the first thing that is wrong, be it the text or the shape. Some faults of a text
count only for a reader that uses the value: half of a surrogate pair, a number out
of range and too deep a nesting pass unnoticed where a value is skipped. So each
token holds both what a user of it gets and what stops a reader that skips it.

Whatever is skipped without a fault up to the closing of an array or object was read
completely (`Doc.fault?`).
-/

namespace RunControl.Json

/-- How a text can break. -/
inductive Fault where
  /-- The text ends too early. -/
  | ended
  /-- A character stands where it must not. -/
  | malformed
  deriving DecidableEq, Repr

/-- A token of a text. -/
structure Token (α : Type) where
  /-- What a reader gets that uses the token. -/
  value : Except Fault α
  /-- Where a reader stops that skips the token. -/
  skip : Option Fault

/-- A token without fault. -/
def Token.good {α : Type} (a : α) : Token α :=
  ⟨.ok a, none⟩

/-- A token that breaks every reader in the same way. -/
def Token.bad {α : Type} (f : Fault) : Token α :=
  ⟨.error f, some f⟩

/-- The three literal names. -/
inductive Word where
  | null
  | true
  | false
  deriving DecidableEq, Repr

/-- The outline of a text. A member whose key is no string is malformed, whatever
stands in the key's place. -/
inductive Doc where
  /-- No value starts here. -/
  | absent (fault : Fault)
  | word (w : Token Word)
  | number (n : Token Number)
  | string (s : Token String)
  | array (items : List Doc) (stop : Option Fault)
  | object (members : List (Token String × Doc)) (stop : Option Fault)

/-! ### Strings -/

/-- A piece of a string: a character or half of a surrogate pair. -/
inductive Glyph where
  | char (c : Char)
  | half (code : Nat)
  deriving DecidableEq, Repr

/-- The value of a hexadecimal digit of either case. -/
def hexValue? (c : Char) : Option Nat :=
  if '0' ≤ c ∧ c ≤ '9' then some (c.toNat - '0'.toNat)
  else if 'a' ≤ c ∧ c ≤ 'f' then some (c.toNat - 'a'.toNat + 10)
  else if 'A' ≤ c ∧ c ≤ 'F' then some (c.toNat - 'A'.toNat + 10)
  else none

/-- The code that four hexadecimal digits denote. -/
def hexCode? (a b c d : Char) : Option Nat := do
  let a ← hexValue? a
  let b ← hexValue? b
  let c ← hexValue? c
  let d ← hexValue? d
  some (((a * 16 + b) * 16 + c) * 16 + d)

/-- What a backslash and this character stand for. -/
def escaped? : Char → Option Char
  | '"' => some '"'
  | '\\' => some '\\'
  | '/' => some '/'
  | 'b' => some (Char.ofNat 0x8)
  | 'f' => some (Char.ofNat 0xC)
  | 'n' => some '\n'
  | 'r' => some '\r'
  | 't' => some '\t'
  | _ => none

/-- The piece that a code stands for. -/
def Glyph.ofCode (code : Nat) : Glyph :=
  if 0xD800 ≤ code ∧ code ≤ 0xDFFF then .half code else .char (Char.ofNat code)

/-- Puts a piece before what was read behind it. -/
def Glyph.before (g : Glyph) (r : List Glyph × Option Fault × List Char) :
    List Glyph × Option Fault × List Char :=
  (g :: r.1, r.2)

/-- The pieces of a string up to its closing quote, how it broke, and the text after
it. An escape by code that has fewer than four bytes left has ended too early. -/
def glyphs : List Char → List Glyph × Option Fault × List Char
  | [] => ([], some .ended, [])
  | '"' :: r => ([], none, r)
  | ['\\'] => ([], some .ended, [])
  | '\\' :: 'u' :: a :: b :: c :: d :: r =>
    match hexCode? a b c d with
    | some code => (Glyph.ofCode code).before (glyphs r)
    | none => ([], some .malformed, [])
  | '\\' :: 'u' :: r =>
    ([], some (if (Utf8.encodeChars r).length < 4 then .ended else .malformed), [])
  | '\\' :: c :: r =>
    match escaped? c with
    | some e => (Glyph.char e).before (glyphs r)
    | none => ([], some .malformed, [])
  | c :: r => if c.toNat < 0x20 then ([], some .malformed, []) else (Glyph.char c).before (glyphs r)

/-- The characters of a string's pieces: two halves, the high one first, make one
character, and a half alone is malformed. -/
def joinGlyphs (stop : Option Fault) : List Glyph → Except Fault (List Char)
  | [] => match stop with
    | none => .ok []
    | some f => .error f
  | .char c :: r => (joinGlyphs stop r).map (c :: ·)
  | .half high :: .half low :: r =>
    if high < 0xDC00 ∧ 0xDC00 ≤ low then
      (joinGlyphs stop r).map (Char.ofNat (0x10000 + (high - 0xD800) * 0x400 + (low - 0xDC00)) :: ·)
    else .error .malformed
  | [.half high] => if high < 0xDC00 then .error (stop.getD .malformed) else .error .malformed
  | .half _ :: .char _ :: _ => .error .malformed

/-- The string behind an opening quote, and the text after it unless it broke. -/
def readString (cs : List Char) : Token String × Option (List Char) :=
  let (pieces, stop, rest) := glyphs cs
  (⟨(joinGlyphs stop pieces).map String.ofList, stop⟩, if stop.isNone then some rest else none)

/-! ### Words and numbers -/

/-- A literal name. -/
def readWord (w : Word) (name : String) (cs : List Char) : Token Word × Option (List Char) :=
  if name.toList.isPrefixOf cs then (.good w, some (cs.drop name.length))
  else (.bad (if cs.isPrefixOf name.toList then .ended else .malformed), none)

/-- What is wrong where a digit is missing. A reader that skips the numeral takes the
end of the text for a wrong character. -/
def missingDigit (cs : List Char) : Token Number :=
  ⟨.error (if cs.isEmpty then .ended else .malformed), some .malformed⟩

/-- The token of a complete numeral. -/
def Numeral.token (n : Numeral) : Token Number :=
  match n.value? with
  | some v => .good v
  | none => ⟨.error .malformed, none⟩

/-- The exponent of a numeral, if one follows. -/
def readExponent (n : Numeral) : List Char → Token Number × Option (List Char)
  | c :: r =>
    if c = 'e' ∨ c = 'E' then
      let (down, r) := match r with
        | '-' :: s => (true, s)
        | '+' :: s => (false, s)
        | s => (false, s)
      let digits := r.takeWhile Char.isDigit
      if digits.isEmpty then (missingDigit r, none)
      else ({ n with exponent := some (down, digits) }.token, some (r.dropWhile Char.isDigit))
    else (n.token, some (c :: r))
  | [] => (n.token, some [])

/-- The fraction of a numeral, if one follows, and its exponent. -/
def readFraction (n : Numeral) : List Char → Token Number × Option (List Char)
  | '.' :: r =>
    let digits := r.takeWhile Char.isDigit
    if digits.isEmpty then (missingDigit r, none)
    else readExponent { n with fraction := some digits } (r.dropWhile Char.isDigit)
  | r => readExponent n r

/-- A number. Its whole part is a zero alone or starts with another digit. -/
def readNumber (cs : List Char) : Token Number × Option (List Char) :=
  let (minus, r) := match cs with
    | '-' :: s => (true, s)
    | s => (false, s)
  let digits := r.takeWhile Char.isDigit
  match digits with
  | [] => (missingDigit r, none)
  | '0' :: _ :: _ => (.bad .malformed, none)
  | _ => readFraction ⟨minus, digits, none, none⟩ (r.dropWhile Char.isDigit)

/-! ### Values -/

/-- The text without the blanks at its start: space, line feed, carriage return and
tabulator. -/
def skipBlanks (cs : List Char) : List Char :=
  cs.dropWhile fun c => c = ' ' ∨ c = '\n' ∨ c = '\r' ∨ c = '\t'

/-- A token as part of an outline. -/
def leaf {α : Type} (make : Token α → Doc) (t : Token α × Option (List Char)) :
    Doc × Option (List Char) :=
  (make t.1, t.2)

mutual

/-- The value at the start of a text, and the text after it unless it broke. The
fuel bounds the recursion; twice the length of the text is enough. -/
def readValue : Nat → List Char → Doc × Option (List Char)
  | 0, _ => (.absent .malformed, none)
  | fuel + 1, cs =>
    match skipBlanks cs with
    | [] => (.absent .ended, none)
    | '"' :: r => leaf .string (readString r)
    | '[' :: r =>
      let (items, stop, rest) := readItems fuel true r
      (.array items stop, rest)
    | '{' :: r =>
      let (members, stop, rest) := readMembers fuel true r
      (.object members stop, rest)
    | c :: r =>
      if c = 'n' then leaf .word (readWord .null "null" (c :: r))
      else if c = 't' then leaf .word (readWord .true "true" (c :: r))
      else if c = 'f' then leaf .word (readWord .false "false" (c :: r))
      else if c = '-' ∨ c.isDigit then leaf .number (readNumber (c :: r))
      else (.absent .malformed, none)

/-- The items of an array up to its closing bracket, how it broke, and the text
after it. -/
def readItems : Nat → Bool → List Char → List Doc × Option Fault × Option (List Char)
  | 0, _, _ => ([], some .malformed, none)
  | fuel + 1, first, cs =>
    match skipBlanks cs with
    | [] => ([], some .ended, none)
    | ']' :: r => ([], none, some r)
    | c :: r =>
      if first then readItem fuel (c :: r)
      else if c = ',' then
        match skipBlanks r with
        | [] => ([.absent .ended], none, none)
        | ']' :: _ => ([], some .malformed, none)
        | s => readItem fuel s
      else ([], some .malformed, none)

/-- An item of an array and those after it. -/
def readItem : Nat → List Char → List Doc × Option Fault × Option (List Char)
  | 0, _ => ([], some .malformed, none)
  | fuel + 1, cs =>
    match readValue fuel cs with
    | (d, none) => ([d], none, none)
    | (d, some rest) =>
      let (items, stop, rest) := readItems fuel false rest
      (d :: items, stop, rest)

/-- The members of an object up to its closing brace, how it broke, and the text
after it. -/
def readMembers :
    Nat → Bool → List Char → List (Token String × Doc) × Option Fault × Option (List Char)
  | 0, _, _ => ([], some .malformed, none)
  | fuel + 1, first, cs =>
    match skipBlanks cs with
    | [] => ([], some .ended, none)
    | '}' :: r => ([], none, some r)
    | c :: r =>
      if first then readMember fuel (c :: r)
      else if c = ',' then
        match skipBlanks r with
        | [] => ([(.bad .ended, .absent .ended)], none, none)
        | '}' :: _ => ([], some .malformed, none)
        | s => readMember fuel s
      else ([], some .malformed, none)

/-- A member of an object and those after it. -/
def readMember :
    Nat → List Char → List (Token String × Doc) × Option Fault × Option (List Char)
  | 0, _ => ([], some .malformed, none)
  | fuel + 1, cs =>
    match cs with
    | '"' :: r =>
      match readString r with
      | (key, none) => ([(key, .absent .malformed)], none, none)
      | (key, some rest) =>
        match skipBlanks rest with
        | [] => ([(key, .absent .ended)], none, none)
        | ':' :: r =>
          match readValue fuel r with
          | (d, none) => ([(key, d)], none, none)
          | (d, some rest) =>
            let (members, stop, rest) := readMembers fuel false rest
            ((key, d) :: members, stop, rest)
        | _ => ([(key, .absent .malformed)], none, none)
    | _ => ([(.bad .malformed, .absent .malformed)], none, none)

end

/-- The outline of a whole text, and whether only blanks stand after its value. -/
structure Outline where
  doc : Doc
  clean : Bool

/-- The outline of a text. -/
def outline (s : String) : Outline :=
  let cs := s.toList
  match readValue (3 * cs.length + 3) cs with
  | (d, some rest) => ⟨d, (skipBlanks rest).isEmpty⟩
  | (d, none) => ⟨d, false⟩

/-! ### Skipping and using outlines -/

mutual

/-- What stops a reader that skips a value. -/
def Doc.fault? : Doc → Option Fault
  | .absent f => some f
  | .word w => w.skip
  | .number n => n.skip
  | .string s => s.skip
  | .array items stop => (itemsFault? items).or stop
  | .object members stop => (membersFault? members).or stop

/-- What stops a reader that skips items. -/
def itemsFault? : List Doc → Option Fault
  | [] => none
  | d :: r => d.fault?.or (itemsFault? r)

/-- What stops a reader that skips members. -/
def membersFault? : List (Token String × Doc) → Option Fault
  | [] => none
  | (key, d) :: r => key.skip.or (d.fault?.or (membersFault? r))

end

/-- Fails where an array or object broke before its end. -/
def close {α : Type} (stop : Option Fault) (a : α) : Except Fault α :=
  match stop with
  | none => .ok a
  | some f => .error f

mutual

/-- The value of an outline with at most `room` levels of nesting. A repeated member
keeps its last value, and members are put in key order. -/
def Doc.toJson (room : Nat) : Doc → Except Fault Json
  | .absent f => .error f
  | .word w => w.value.map fun
    | .null => .null
    | .true => .bool true
    | .false => .bool false
  | .number n => n.value.map .number
  | .string s => s.value.map .string
  | .array items stop =>
    match room with
    | 0 => .error .malformed
    | room + 1 => do close stop (.array (← itemsToJson room items))
  | .object members stop =>
    match room with
    | 0 => .error .malformed
    | room + 1 => do close stop (.ofTable (.ofList (← membersToJson room members)))

/-- The values of items. -/
def itemsToJson (room : Nat) : List Doc → Except Fault (List Json)
  | [] => .ok []
  | d :: r => do
    let j ← d.toJson room
    return j :: (← itemsToJson room r)

/-- The names and values of members. -/
def membersToJson (room : Nat) : List (Token String × Doc) → Except Fault (List (String × Json))
  | [] => .ok []
  | (key, d) :: r => do
    let k ← key.value
    let j ← d.toJson room
    return (k, j) :: (← membersToJson room r)

end

mutual

/-- The outline of a value. -/
def toDoc : Json → Doc
  | .null => .word (.good .null)
  | .bool b => .word (.good (if b then .true else .false))
  | .number n => .number (.good n)
  | .string s => .string (.good s)
  | .array items => .array (itemsToDoc items) none
  | .object members => .object (membersToDoc members) none

/-- The outlines of items. -/
def itemsToDoc : List Json → List Doc
  | [] => []
  | j :: r => j.toDoc :: itemsToDoc r

/-- The outlines of members. -/
def membersToDoc : List (String × Json) → List (Token String × Doc)
  | [] => []
  | (k, j) :: r => (.good k, j.toDoc) :: membersToDoc r

end

/-- The levels of nesting that a text may have. -/
def depthLimit : Nat := 127

/-- The value of a text. -/
def ofText (s : String) : Except Fault Json := do
  let o := outline s
  let j ← o.doc.toJson depthLimit
  if o.clean then return j else throw .malformed

end RunControl.Json
