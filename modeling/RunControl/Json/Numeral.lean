import RunControl.Json.Basic
import RunControl.Text.Numeral
import RunControl.Decimal.Shortest

/-!
JSON numerals: the value of one that was read, and the text of a number.

An integer that fits 64 bits is read exactly. Every other numeral is a double: its
digits are gathered into a significand of 64 bits as long as they fit, and the
significand is then scaled by one power of ten after another, so the last bit of
such a double may differ from the nearest one. A double is written in the shortest
digits that read back.
-/

namespace RunControl.Json

/-- The parts of a numeral. -/
structure Numeral where
  minus : Bool
  whole : List Char
  fraction : Option (List Char)
  /-- The sign of the exponent, `true` for `-`, and its digits. -/
  exponent : Option (Bool × List Char)
  deriving Repr

/-- Gathers digits into a significand while it stays below 2^64; the second part is
the row of digits left over. -/
def gather (significand : Nat) : List Char → Nat × List Char
  | [] => (significand, [])
  | c :: r =>
    let next := 10 * significand + (c.toNat - '0'.toNat)
    if next < UInt64.size then gather next r else (significand, c :: r)

/-- The double nearest to a power of ten up to 10^308. -/
def powerOfTen (n : Nat) : Float :=
  Float.ofScientific 1 false n

/-- Divides by a power of ten in steps of at most 10^308. -/
def scaleDown (f : Float) (n : Nat) : Float :=
  if n ≤ 308 then f / powerOfTen n
  else if f == 0 then f
  else scaleDown (f / powerOfTen 308) (n - 308)
termination_by n

/-- The magnitude `significand * 10 ^ exponent`, unless it is too large for a double. -/
def magnitude? (significand : Nat) (exponent : Int) : Option Float :=
  let f := (UInt64.ofNat significand).toFloat
  if exponent < 0 then some (scaleDown f exponent.natAbs)
  else if exponent ≤ 308 then
    let g := f * powerOfTen exponent.toNat
    if g.isInf then none else some g
  else if f == 0 then some f
  else none

/-- The double with this sign and magnitude. -/
def Number.ofMagnitude (minus : Bool) (f : Float) : Number :=
  .double (if minus then -f else f).toBits

/-- The number that a whole significand denotes. Minus zero and integers below
-2^63 are doubles. -/
def Number.ofSignificand (minus : Bool) (significand : Nat) : Number :=
  if !minus then .natural (UInt64.ofNat significand)
  else if 0 < significand ∧ significand ≤ UInt64.size / 2 then
    .negative (Int64.ofInt (-significand))
  else .ofMagnitude true (UInt64.ofNat significand).toFloat

/-- The value of a numeral; `none` when it is beyond the doubles. An exponent above
2^31 - 1 leaves zero or is out of range, whatever the digits are. -/
def Numeral.value? (n : Numeral) : Option Number :=
  let (whole, dropped) := gather 0 n.whole
  if n.fraction.isNone && n.exponent.isNone && dropped.isEmpty then
    some (.ofSignificand n.minus whole)
  else
    let fraction := n.fraction.getD []
    let (significand, unused) := gather whole fraction
    let scale : Int := dropped.length - (fraction.length - unused.length)
    match n.exponent with
    | none => (magnitude? significand scale).map (.ofMagnitude n.minus)
    | some (down, digits) =>
      let e := Text.digitsValue 0 digits
      if e < UInt32.size / 2 then
        (magnitude? significand (if down then scale - e else scale + e)).map (.ofMagnitude n.minus)
      else if significand = 0 || down then some (.ofMagnitude n.minus 0)
      else none

/-- Doubles from 10^-5 up to below 10^16 are written without an exponent. -/
def doubleLayout : Decimal.Layout :=
  ⟨-5, 15, '.', 'e'⟩

/-- The text of a double. -/
def writeDouble (bits : UInt64) : List Char :=
  let sign := if bits < 0x8000000000000000 then [] else ['-']
  let b := Decimal.Binary.ofBits bits
  sign ++ if b.mantissa = 0 then "0.0".toList else doubleLayout.write b.shortest

/-- The text of a number. -/
def Number.write : Number → List Char
  | .natural n => Nat.toDigits 10 n.toNat
  | .negative n => '-' :: Nat.toDigits 10 n.toInt.natAbs
  | .double bits => writeDouble bits

example : writeDouble 0x8000000000000000 = "-0.0".toList := by decide +kernel
example : writeDouble 0x43E0000000000000 = "9.223372036854776e+18".toList := by decide +kernel

end RunControl.Json
