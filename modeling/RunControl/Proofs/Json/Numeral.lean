import RunControl.Json.Numeral

/-!
Integers read back from their numerals.

The digits of a count are gathered to the count as long as it fits 64 bits (`gather_toDigits`), so
integers of 64 bits are read from what is written of them. In the other direction a numeral denotes
a count, an integer below zero or a double, and nothing else (`Numeral.proper_value?`).
-/

namespace RunControl.Json

variable {n m : Nat} {cs ds : List Char}

/-- An integer from -2^63 to 2^64 - 1, in the form that goes with its sign. -/
def Number.IsInteger : Number → Prop
  | .natural _ => True
  | .negative n => n < 0
  | .double _ => False

/-- A number in one of its forms: negative integers are below zero. -/
def Number.Proper (v : Number) : Prop :=
  v.IsInteger ∨ ∃ bits, v = .double bits

/-- What is gathered from a row of digits is gathered before those that follow it. -/
theorem gather_append (gathered : gather n cs = (m, [])) (ds : List Char) :
    gather n (cs ++ ds) = gather m ds := by
  induction cs generalizing n with
  | nil =>
      cases gathered
      rfl
  | cons c cs ih =>
      rw [gather] at gathered
      rw [List.cons_append, gather]
      split at gathered
      · rename_i fits
        rw [if_pos fits]
        exact ih gathered
      · cases gathered

theorem toNat_digitChar : ∀ n < 10, n.digitChar.toNat - '0'.toNat = n := by
  decide

theorem digitChar_ne_zero : ∀ n < 10, 0 < n → n.digitChar ≠ '0' := by
  decide

theorem gather_toDigits (fits : n < UInt64.size) : gather 0 (Nat.toDigits 10 n) = (n, []) := by
  induction n using Nat.strongRecOn with
  | ind n ih =>
      by_cases small : n < 10
      · rw [Nat.toDigits_of_lt_base small, gather, toNat_digitChar n small]
        simp [fits, gather]
      · have last := toNat_digitChar (n % 10) (Nat.mod_lt n (by decide))
        have whole : 10 * (n / 10) + n % 10 = n := Nat.div_add_mod n 10
        rw [Nat.toDigits_of_base_le (by decide) (by omega),
          gather_append (ih (n / 10) (by omega) (by omega)), gather, last, whole]
        simp [fits, gather]

/-- The first digit of a count is a zero only if the count is zero. -/
theorem toDigits_head (positive : 0 < n) (r : List Char) : Nat.toDigits 10 n ≠ '0' :: r := by
  induction n using Nat.strongRecOn generalizing r with
  | ind n ih =>
      by_cases small : n < 10
      · rw [Nat.toDigits_of_lt_base small]
        intro same
        exact digitChar_ne_zero n small positive (List.cons.inj same).1
      · obtain ⟨c, front, first⟩ := List.exists_cons_of_ne_nil
          (Nat.toDigits_ne_nil (n := n / 10) (b := 10))
        rw [Nat.toDigits_of_base_le (by decide) (by omega), first]
        intro same
        obtain rfl := (List.cons.inj same).1
        exact ih (n / 10) (by omega) (by omega) front first

/-! ### Numerals of integers -/

/-- The whole part of a numeral: digits, of which the first is a zero only if it is the only one. -/
structure Whole (digits : List Char) : Prop where
  digit : ∀ c ∈ digits, c.isDigit = true
  nonempty : digits ≠ []
  zero : ∀ r, digits = '0' :: r → r = []

theorem whole_toDigits (n : Nat) : Whole (Nat.toDigits 10 n) where
  digit c member := Nat.isDigit_of_mem_toDigits (by decide) (by decide) member
  nonempty := Nat.toDigits_ne_nil
  zero r same := by
    by_cases positive : 0 < n
    · exact absurd same (toDigits_head positive r)
    · obtain rfl : n = 0 := by omega
      rw [Nat.toDigits_zero] at same
      exact (List.cons.inj same).2.symm

/-- A numeral without fraction and exponent. -/
def Numeral.ofWhole (minus : Bool) (digits : List Char) : Numeral :=
  ⟨minus, digits, none, none⟩

theorem value?_ofWhole (minus : Bool) {digits : List Char} {n : Nat}
    (gathered : gather 0 digits = (n, [])) :
    (Numeral.ofWhole minus digits).value? = some (.ofSignificand minus n) := by
  unfold Numeral.value? Numeral.ofWhole
  rw [gathered]
  rfl

theorem value?_natural (n : UInt64) :
    (Numeral.ofWhole false (Nat.toDigits 10 n.toNat)).value? = some (.natural n) := by
  rw [value?_ofWhole _ (gather_toDigits n.toNat_lt), Number.ofSignificand,
    if_pos (show (!false) = true from rfl), UInt64.ofNat_toNat]

theorem value?_negative {n : Int64} (below : n < 0) :
    (Numeral.ofWhole true (Nat.toDigits 10 n.toInt.natAbs)).value? = some (.negative n) := by
  have sign : n.toInt < 0 := Int64.lt_iff_toInt_lt.mp below
  have least : -2 ^ 63 ≤ n.toInt := n.le_toInt
  have size : UInt64.size = 2 ^ 64 := rfl
  have negated : -(n.toInt.natAbs : Int) = n.toInt := by omega
  have fits : n.toInt.natAbs < UInt64.size := by omega
  rw [value?_ofWhole _ (gather_toDigits fits), Number.ofSignificand, if_neg nofun,
    if_pos (by omega), negated, Int64.ofInt_toInt]

theorem proper_ofSignificand (minus : Bool) (significand : Nat) :
    (Number.ofSignificand minus significand).Proper := by
  unfold Number.ofSignificand
  split
  · exact .inl trivial
  · split
    · rename_i range
      have size : UInt64.size = 2 ^ 64 := rfl
      refine .inl (Int64.lt_iff_toInt_lt.mpr ?_)
      rw [Int64.toInt_ofInt_of_le (by omega) (by omega), Int64.toInt_zero]
      omega
    · exact .inr ⟨_, rfl⟩

/-- A numeral denotes a count, an integer below zero, or a double. -/
theorem Numeral.proper_value? {numeral : Numeral} {v : Number} (value : numeral.value? = some v) :
    v.Proper := by
  have scaled {f : Option Float} {minus : Bool}
      (value : f.map (Number.ofMagnitude minus) = some v) : v.Proper := by
    obtain ⟨f, -, rfl⟩ := Option.map_eq_some_iff.mp value
    exact .inr ⟨_, rfl⟩
  unfold Numeral.value? at value
  dsimp only at value
  split at value
  · cases value
    exact proper_ofSignificand _ _
  · split at value
    · exact scaled value
    · split at value
      · exact scaled value
      · split at value
        · cases value
          exact .inr ⟨_, rfl⟩
        · cases value

end RunControl.Json
