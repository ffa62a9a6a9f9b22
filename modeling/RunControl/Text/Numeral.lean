/-!
Decimal numerals of counts: an optional `+`, then at least one ASCII digit.

Leading zeros are allowed and no other character is, so a blank, a sign `-` or a
separator makes the text no numeral.
-/

namespace RunControl.Text

/-- The value of a row of decimal digits, read after the value `start`. -/
def digitsValue (start : Nat) (digits : List Char) : Nat :=
  digits.foldl (fun n c => 10 * n + (c.toNat - '0'.toNat)) start

/-- The count that a numeral denotes. -/
def count? (s : List Char) : Option Nat :=
  let digits := match s with
    | '+' :: r => r
    | r => r
  if digits.isEmpty || digits.any (! ·.isDigit) then none else some (digitsValue 0 digits)

/-- The count that a numeral denotes, unless it is above `top`. -/
def countUpTo? (top : Nat) (s : List Char) : Option Nat :=
  (count? s).filter (· ≤ top)

example : count? "+007".toList = some 7 := by decide
example : count? "".toList = none ∧ count? "+".toList = none ∧ count? "-1".toList = none := by
  decide
example : countUpTo? 65535 "65536".toList = none := by decide

end RunControl.Text
