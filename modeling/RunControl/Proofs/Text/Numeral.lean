import RunControl.Text.Numeral

/-!
What numerals of counts denote.

`Denotes s n` is the grammar of numerals with their values. It sets no limit to the length of a
numeral, and zeros may stand at its start. A count is read of a text exactly if the text is a numeral
of it (`countUpTo?_eq_some_iff`).
-/

namespace RunControl.Text

variable {n top : Nat} {s digits : List Char}

/-- A row of at least one ASCII digit. -/
structure Digits (digits : List Char) : Prop where
  nonempty : digits ≠ []
  ascii : ∀ c ∈ digits, c.isDigit = true

/-- `Denotes s n`: the text is a row of digits, with a plus sign before it if one likes, and `n` is
its value. -/
inductive Denotes : List Char → Nat → Prop where
  | unsigned {digits : List Char} (row : Digits digits) :
      Denotes digits (Nat.ofDigitChars 10 digits 0)
  | signed {digits : List Char} (row : Digits digits) :
      Denotes ('+' :: digits) (Nat.ofDigitChars 10 digits 0)

theorem digitsValue_eq (start : Nat) (digits : List Char) :
    digitsValue start digits = Nat.ofDigitChars 10 digits start := rfl

/-- A sign is no digit. -/
theorem Digits.unsigned (row : Digits digits) (r : List Char) : digits ≠ '+' :: r := by
  rintro rfl
  exact nomatch row.ascii '+' (.head _)

/-- The test for a row of digits. -/
theorem digits_iff :
    (digits.isEmpty || digits.any (! ·.isDigit)) = false ↔ Digits digits := by
  constructor
  · intro passed
    obtain ⟨nonempty, ascii⟩ := Bool.or_eq_false_iff.mp passed
    refine ⟨List.isEmpty_eq_false_iff.mp nonempty, fun c member => ?_⟩
    simpa using List.any_eq_false.mp ascii c member
  · intro row
    rw [Bool.or_eq_false_iff, List.isEmpty_eq_false_iff, List.any_eq_false]
    exact ⟨row.nonempty, fun c member => by simp [row.ascii c member]⟩

/-- A count is read of a text exactly if the text is a numeral of the count. -/
theorem count?_eq_some_iff : count? s = some n ↔ Denotes s n := by
  have read {digits : List Char} :
      (if digits.isEmpty || digits.any (! ·.isDigit) then none
        else some (digitsValue 0 digits)) = some n ↔
      Digits digits ∧ Nat.ofDigitChars 10 digits 0 = n := by
    rw [← digits_iff]
    split
    · rename_i failed
      simp [failed]
    · rename_i passed
      simp [passed, digitsValue_eq]
  unfold count?
  constructor
  · intro counted
    split at counted
    · obtain ⟨row, rfl⟩ := read.mp counted
      exact .signed row
    · obtain ⟨row, rfl⟩ := read.mp counted
      exact .unsigned row
  · rintro (row | row)
    · split
      · rename_i r
        exact absurd rfl (row.unsigned r)
      · exact read.mpr ⟨row, rfl⟩
    · exact read.mpr ⟨row, rfl⟩

/-- The same for counts up to a largest one. -/
theorem countUpTo?_eq_some_iff : countUpTo? top s = some n ↔ Denotes s n ∧ n ≤ top := by
  rw [countUpTo?, Option.filter_eq_some_iff, count?_eq_some_iff, decide_eq_true_eq]

end RunControl.Text
