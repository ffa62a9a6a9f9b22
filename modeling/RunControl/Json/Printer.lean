import RunControl.Json.Numeral

/-!
Writing JSON values, on one line without blanks (`compact`) or one member a line
with an indent of two blanks a level (`pretty`).

In a string only the quote, the backslash and the controls below U+0020 are escaped.
-/

namespace RunControl.Json

/-- The lower-case hexadecimal digit of a value below 16. -/
def hexDigit (n : Nat) : Char :=
  if n < 10 then Char.ofNat ('0'.toNat + n) else Char.ofNat ('a'.toNat + (n - 10))

/-- A character as it stands inside a string. -/
def escape (c : Char) : List Char :=
  if c = '"' then ['\\', '"']
  else if c = '\\' then ['\\', '\\']
  else if c = '\n' then ['\\', 'n']
  else if c = '\r' then ['\\', 'r']
  else if c = '\t' then ['\\', 't']
  else if c.toNat = 0x8 then ['\\', 'b']
  else if c.toNat = 0xC then ['\\', 'f']
  else if c.toNat < 0x20 then
    ['\\', 'u', '0', '0', hexDigit (c.toNat / 16), hexDigit (c.toNat % 16)]
  else [c]

/-- A string in quotes. -/
def quote (s : String) : List Char :=
  '"' :: (s.toList.flatMap escape ++ ['"'])

/-- The text of a value without structure. -/
def writeLeaf : Json → List Char
  | .null => "null".toList
  | .bool true => "true".toList
  | .bool false => "false".toList
  | .number n => n.write
  | .string s => quote s
  | _ => []

mutual

/-- A value on one line without blanks. -/
def write : Json → List Char
  | .array items => '[' :: (writeItems items ++ [']'])
  | .object members => '{' :: (writeMembers members ++ ['}'])
  | leaf => writeLeaf leaf

/-- Items with commas between them. -/
def writeItems : List Json → List Char
  | [] => []
  | [j] => write j
  | j :: r => write j ++ ',' :: writeItems r

/-- Members with commas between them. -/
def writeMembers : List (String × Json) → List Char
  | [] => []
  | [(k, j)] => quote k ++ ':' :: write j
  | (k, j) :: r => quote k ++ ':' :: (write j ++ ',' :: writeMembers r)

end

/-- A line break and the indent of a level. -/
def newLine (level : Nat) : List Char :=
  '\n' :: List.replicate (2 * level) ' '

mutual

/-- A value at a level of nesting, one item or member a line. -/
def writeAt (level : Nat) : Json → List Char
  | .array [] => ['[', ']']
  | .object [] => ['{', '}']
  | .array items => '[' :: (writeItemsAt (level + 1) items ++ newLine level ++ [']'])
  | .object members => '{' :: (writeMembersAt (level + 1) members ++ newLine level ++ ['}'])
  | leaf => writeLeaf leaf

/-- Items, each on a line of its own. -/
def writeItemsAt (level : Nat) : List Json → List Char
  | [] => []
  | [j] => newLine level ++ writeAt level j
  | j :: r => newLine level ++ writeAt level j ++ ',' :: writeItemsAt level r

/-- Members, each on a line of its own. -/
def writeMembersAt (level : Nat) : List (String × Json) → List Char
  | [] => []
  | [(k, j)] => newLine level ++ quote k ++ ':' :: ' ' :: writeAt level j
  | (k, j) :: r =>
    newLine level ++ quote k ++ ':' :: ' ' :: (writeAt level j ++ ',' :: writeMembersAt level r)

end

/-- The text of a value on one line. -/
def compact (j : Json) : String :=
  String.ofList j.write

/-- The text of a value with one item or member a line. -/
def pretty (j : Json) : String :=
  String.ofList (j.writeAt 0)

end RunControl.Json
