/-!
The shortest decimal that reads back as a given double.

A finite positive double is `mantissa * 2 ^ exponent`. The reals that round to it
form an interval around it, whose ends belong to it when the mantissa is even. On
the grid of decimals with 1, 2, … 17 digits only the two neighbours of the value
can be the closest ones in the interval; the first grid with one of them inside
gives the digits, the nearer of two wins and a tie goes to the even digit.
-/

namespace RunControl.Decimal

/-- The positive value `mantissa * 2 ^ exponent`. -/
structure Binary where
  mantissa : Nat
  exponent : Int
  deriving DecidableEq, Repr

/-- The value `digits * 10 ^ exponent`. -/
structure Scaled where
  digits : Nat
  exponent : Int
  deriving DecidableEq, Repr

/-- Number of decimal digits of a count; zero has none. -/
def digitCount (n : Nat) : Nat :=
  if n = 0 then 0 else (Nat.toDigits 10 n).length

/-- The top bit of a mantissa, which the bits of a double leave out: 2^52. -/
def leadingBit : Nat := 0x10000000000000

/-- The mantissa and exponent in the 64 bits of a finite double, sign left out. -/
def Binary.ofBits (bits : UInt64) : Binary :=
  let fraction := bits.toNat % leadingBit
  let biased := bits.toNat / leadingBit % 2048
  if biased = 0 then ⟨fraction, -1074⟩ else ⟨leadingBit + fraction, Int.ofNat biased - 1075⟩

/-- A value with the ends of its rounding interval, over one denominator. -/
structure Interval where
  low : Nat
  value : Nat
  high : Nat
  denominator : Nat
  closed : Bool
  deriving Repr

/-- The reals that round to a double. Below a power of two the neighbours lie twice
as close as above it. -/
def Binary.interval (b : Binary) : Interval :=
  let gap := if b.mantissa = leadingBit ∧ b.exponent > -1074 then 1 else 2
  let scale := Nat.pow 2 (b.exponent - 2).toNat
  { low := (4 * b.mantissa - gap) * scale
    value := 4 * b.mantissa * scale
    high := (4 * b.mantissa + 2) * scale
    denominator := Nat.pow 2 (2 - b.exponent).toNat
    closed := b.mantissa % 2 = 0 }

/-- Whether `n / denominator` rounds to the value. -/
def Interval.holds (i : Interval) (n : Nat) : Bool :=
  if i.closed then i.low ≤ n && n ≤ i.high else i.low < n && n < i.high

/-- The exponent of the leading decimal digit. -/
def Interval.leading (i : Interval) : Int :=
  if i.denominator ≤ i.value then (digitCount (i.value / i.denominator) : Int) - 1
  else -(digitCount ((i.denominator + i.value - 1) / i.value - 1) : Int)

/-- The interval stretched by a power of ten. -/
def Interval.stretch (i : Interval) (n : Nat) : Interval :=
  let power := Nat.pow 10 n
  { i with low := i.low * power, value := i.value * power, high := i.high * power }

/-- The best multiple of `10 ^ exponent` in the interval, if there is one. -/
def Interval.onGrid? (i : Interval) (exponent : Int) : Option Scaled :=
  let i := i.stretch (-exponent).toNat
  let unit := i.denominator * Nat.pow 10 exponent.toNat
  let below := i.value / unit
  let above := below + 1
  let toBelow := i.value - below * unit
  let toAbove := above * unit - i.value
  let belowFirst := toBelow < toAbove || (toBelow = toAbove && below % 2 = 0)
  match i.holds (below * unit), i.holds (above * unit) with
  | true, true => some ⟨if belowFirst then below else above, exponent⟩
  | true, false => some ⟨below, exponent⟩
  | false, true => some ⟨above, exponent⟩
  | false, false => none

/-- The grids of 1 to 17 digits, coarsest first. -/
def Interval.grids (i : Interval) : List Int :=
  (List.range 17).map fun (n : Nat) => i.leading - (n : Int)

/-- The shortest decimal that rounds to the double. -/
def Binary.shortest (b : Binary) : Scaled :=
  let i := b.interval
  (i.grids.findSome? i.onGrid?).getD ⟨0, 0⟩

/-! ### Layout -/

/-- How a number is written: the exponents of the leading digit that are written
without an exponent, and the marks. -/
structure Layout where
  leastPlain : Int
  mostPlain : Int
  point : Char
  mark : Char

/-- Zeros, as many as a count says. -/
def zeros (n : Nat) : List Char :=
  List.replicate n '0'

/-- The digits of a count without the zeros at the end. -/
def significant (n : Nat) : List Char :=
  ((Nat.toDigits 10 n).reverse.dropWhile (· == '0')).reverse

/-- The text of a positive number. A number without an exponent has at least one
digit on either side of the point; an exponent carries its sign. -/
def Layout.write (l : Layout) (s : Scaled) : List Char :=
  let digits := significant s.digits
  let leading : Int := (Nat.toDigits 10 s.digits).length - 1 + s.exponent
  if l.leastPlain ≤ leading ∧ leading ≤ l.mostPlain then
    if leading < 0 then '0' :: l.point :: (zeros (-leading - 1).toNat ++ digits)
    else
      let whole := leading.toNat + 1
      let fraction := digits.drop whole
      digits.take whole ++ zeros (whole - digits.length) ++
        l.point :: (if fraction.isEmpty then ['0'] else fraction)
  else
    let mantissa := match digits with
      | d :: e :: r => d :: l.point :: e :: r
      | r => r
    let sign := if leading < 0 then '-' else '+'
    mantissa ++ l.mark :: sign :: Nat.toDigits 10 leading.natAbs

example : (Binary.ofBits 0x3FB999999999999A).shortest = ⟨1, -1⟩ := by decide +kernel
example : (Binary.ofBits 1).shortest = ⟨5, -324⟩ := by decide +kernel
example : (Binary.ofBits 0x7FEFFFFFFFFFFFFF).shortest = ⟨17976931348623157, 292⟩ := by
  decide +kernel

end RunControl.Decimal
