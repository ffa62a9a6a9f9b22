import RunControl.Table
import RunControl.Text.Cut

/-!
The listing of exported variables that the environment helper prints, and its reading.

A declaration starts a line with `declare -x ` and may go on over several lines, up to
the next such start. `parse` takes a variable from every piece of the listing that has
an equals sign. What stands before the first declaration is a piece too; the name it
gives starts with a line end. `render` is the listing as the shell prints it.
-/

namespace RunControl.HostEnvironment.Exports

/-- The variables that processes on a host see. -/
abbrev Environment := Table String

/-- How a line with a declaration starts. -/
def start : List Char := "declare -x ".toList

/-- The characters that the shell puts a backslash before. -/
def isGuarded (c : Char) : Bool :=
  c = '"' || c = '\\' || c = '$' || c = '\x60'

/-! ### Reading -/

/-- A double-quoted text without the backslashes before guarded characters. -/
def unguard : List Char → List Char
  | [] => []
  | ['\\'] => ['\\']
  | '\\' :: c :: r => if isGuarded c then c :: unguard r else '\\' :: c :: unguard r
  | c :: r => c :: unguard r

/-- Whether a text starts and ends with a character. -/
def isBetween (q : Char) (v : List Char) : Bool :=
  v.head? == some q && v.getLast? == some q

/-- A value without one layer of quotes. -/
def unquote (v : List Char) : List Char :=
  if v.length < 2 then v
  else if isBetween '\'' v then v.tail.dropLast
  else if isBetween '"' v then unguard v.tail.dropLast
  else v

/-- A text without one line end at its end. -/
def chomp (s : List Char) : List Char :=
  if s.getLast? == some '\n' then s.dropLast else s

/-- The name and value that a piece gives, if it has an equals sign. -/
def declared? (piece : List Char) : Option (String × String) := do
  let (name, value) ← Text.cut? ['='] (chomp piece)
  some (String.ofList name, String.ofList (unquote value))

/-- What separates declarations. -/
def separator : List Char := '\n' :: start

theorem separator_ne_nil : separator ≠ [] := by decide

/-- The pieces of a listing: what stands before the first declaration, then each
declaration with all its lines. -/
def listingPieces (listing : List Char) : List (List Char) :=
  Text.pieces separator separator_ne_nil ('\n' :: listing)

/-- The variables that the pieces of a listing give; of two values the later counts. -/
def parse (listing : String) : Environment :=
  .ofList ((listingPieces listing.toList).filterMap declared?)

/-! ### Printing -/

/-- A line of a listing: a variable with its value, or one without. -/
inductive Declaration where
  | assigned (name value : String)
  | bare (name : String)
  deriving DecidableEq, Repr

/-- A value with a backslash before each guarded character. -/
def guardChars (value : List Char) : List Char :=
  value.flatMap fun c => if isGuarded c then ['\\', c] else [c]

/-- The line of a declaration. -/
def Declaration.line : Declaration → List Char
  | .assigned name value =>
    start ++ name.toList ++ '=' :: '"' :: (guardChars value.toList ++ ['"', '\n'])
  | .bare name => start ++ name.toList ++ ['\n']

/-- The listing of declarations. -/
def render (declarations : List Declaration) : String :=
  String.ofList (declarations.flatMap Declaration.line)

/-- The variables that declarations give a value. -/
def assignments (declarations : List Declaration) : List (String × String) :=
  declarations.filterMap fun
    | .assigned name value => some (name, value)
    | .bare _ => none

end RunControl.HostEnvironment.Exports
