import RunControl.Table
import RunControl.Text.Cut

/-!
Placeholders `%(KEY)s` and their replacement.

`substitute` replaces the placeholders whose keys have a value, in one pass from left
to right: values are not looked at again, and everything else stays as it is.
`expand` says the same one character at a time.
-/

namespace RunControl.Template

/-- What opens a placeholder. -/
def opening : List Char := ['%', '(']

/-- What closes a placeholder. -/
def closing : List Char := [')', 's']

theorem opening_ne_nil : opening ≠ [] := by decide

theorem closing_ne_nil : closing ≠ [] := by decide

/-- The placeholder of a key. -/
def placeholder (key : String) : String :=
  "%(" ++ key ++ ")s"

/-- Replaces the placeholders of a text, going from one opening to the next. -/
def replace (vars : Table String) (rest : List Char) : List Char :=
  match _h : Text.cut? opening rest with
  | none => rest
  | some (before, after) =>
    match _h' : Text.cut? closing after with
    | none => before ++ opening ++ replace vars after
    | some (key, behind) =>
      match vars.get? (String.ofList key) with
      | some value => before ++ value.toList ++ replace vars behind
      | none => before ++ opening ++ replace vars after
termination_by rest.length
decreasing_by
  · exact Text.cut?_length_lt opening_ne_nil ‹_›
  · exact Nat.lt_trans (Text.cut?_length_lt closing_ne_nil ‹_›)
      (Text.cut?_length_lt opening_ne_nil ‹_›)
  · exact Text.cut?_length_lt opening_ne_nil ‹_›

/-- The template with the value of each placeholder whose key has one. -/
def substitute (vars : Table String) (template : String) : String :=
  if vars.isEmpty then template else String.ofList (replace vars template.toList)

/-! ### One character at a time -/

/-- The value of the placeholder at the start of a text and the text after it. The
key reaches up to the first closing. -/
def atPlaceholder? (vars : Table String) (s : List Char) : Option (List Char × List Char) :=
  match s with
  | '%' :: '(' :: r => do
    let (key, behind) ← Text.cut? closing r
    let value ← vars.get? (String.ofList key)
    some (value.toList, behind)
  | _ => none

theorem atPlaceholder?_length_lt {vars : Table String} {s value behind : List Char}
    (h : atPlaceholder? vars s = some (value, behind)) : behind.length < s.length := by
  unfold atPlaceholder? at h
  split at h
  · rename_i r
    simp only [Option.bind_eq_bind, Option.bind_eq_some_iff, Option.some.injEq, Prod.mk.injEq] at h
    obtain ⟨⟨key, rest⟩, hcut, v, _, _, rfl⟩ := h
    have := Text.cut?_length_lt closing_ne_nil hcut
    simp only [List.length_cons]
    omega
  · cases h

/-- The text with a placeholder that has a value replaced wherever one starts, and
every other character copied. -/
def expand (vars : Table String) (s : List Char) : List Char :=
  match _h : atPlaceholder? vars s with
  | some (value, behind) => value ++ expand vars behind
  | none =>
    match s with
    | [] => []
    | c :: r => c :: expand vars r
termination_by s.length
decreasing_by
  · exact atPlaceholder?_length_lt ‹_›
  · simp

/-! ### Vocabularies -/

/-- The host variables that may stand in a placeholder. -/
structure Vocabulary where
  keys : List String
  deriving DecidableEq, Repr

/-- The placeholder key of a host variable. -/
def variableKey (key : String) : String :=
  "ENV_" ++ key

/-- The values of the known host variables by placeholder key. -/
def Vocabulary.values (v : Vocabulary) (environment : Table String) : Table String :=
  .ofList (v.keys.filterMap fun k => (environment.get? k).map fun value => (variableKey k, value))

end RunControl.Template
