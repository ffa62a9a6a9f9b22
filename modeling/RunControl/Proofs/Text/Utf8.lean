import RunControl.Text.Utf8

/-!
Reading UTF-8 back.

A reading step on the bytes of a character gives the character and stops behind it
(`step_encodeChar`), so a reading of encoded texts gives the texts, whatever follows them. In the
other direction nothing but the bytes of a text is read as the text (`decodeChars?_eq_some_iff`).
-/

namespace RunControl.Utf8

variable {n : Nat} {rest : Bytes}

/-! ### Steps by the number of bytes -/

theorem step_two (low : 0x80 ≤ n) (high : n < 0x800) :
    step (UInt8.ofNat (0xC0 + n / 64)) (UInt8.ofNat (0x80 + n % 64) :: rest) =
      (some (Char.ofNat n), rest) := by
  have first := UInt8.toNat_ofNat_of_lt' (show 0xC0 + n / 64 < 256 by omega)
  have second := UInt8.toNat_ofNat_of_lt' (show 0x80 + n % 64 < 256 by omega)
  have wide : ¬ 0xC0 + n / 64 < 0x80 := by omega
  have two : 0xC2 ≤ 0xC0 + n / 64 ∧ 0xC0 + n / 64 ≤ 0xDF := by omega
  have continued : 0x80 ≤ 0x80 + n % 64 ∧ 0x80 + n % 64 ≤ 0xBF := by omega
  have whole : (0xC0 + n / 64 - 0xC0) * 64 + (0x80 + n % 64 - 0x80) = n := by omega
  simp only [step, isContinuation, assemble, first, second, wide, two, continued, decide_true,
    Bool.and_self, if_true, if_false, List.foldl_cons, List.foldl_nil, whole]

theorem step_three (low : 0x800 ≤ n) (high : n < 0x10000) (valid : n < 0xD800 ∨ 0xDFFF < n) :
    step (UInt8.ofNat (0xE0 + n / 4096))
        (UInt8.ofNat (0x80 + n / 64 % 64) :: UInt8.ofNat (0x80 + n % 64) :: rest) =
      (some (Char.ofNat n), rest) := by
  have first := UInt8.toNat_ofNat_of_lt' (show 0xE0 + n / 4096 < 256 by omega)
  have second := UInt8.toNat_ofNat_of_lt' (show 0x80 + n / 64 % 64 < 256 by omega)
  have third := UInt8.toNat_ofNat_of_lt' (show 0x80 + n % 64 < 256 by omega)
  have wide : ¬ 0xE0 + n / 4096 < 0x80 := by omega
  have two : ¬ 0xE0 + n / 4096 ≤ 0xDF := by omega
  have three : 0xE0 ≤ 0xE0 + n / 4096 ∧ 0xE0 + n / 4096 ≤ 0xEF := by omega
  have continued : 0x80 ≤ 0x80 + n % 64 ∧ 0x80 + n % 64 ≤ 0xBF := by omega
  have allowed : isSecond (UInt8.ofNat (0xE0 + n / 4096)) (UInt8.ofNat (0x80 + n / 64 % 64)) =
      true := by
    simp only [isSecond, first, second]
    grind
  have whole : ((0xE0 + n / 4096 - 0xE0) * 64 + (0x80 + n / 64 % 64 - 0x80)) * 64 +
      (0x80 + n % 64 - 0x80) = n := by omega
  simp only [step, allowed, isContinuation, assemble, first, second, third, wide, two, three,
    continued, decide_true, decide_false, Bool.and_self, Bool.and_false, Bool.false_eq_true,
    if_true, if_false, List.foldl_cons, List.foldl_nil, whole]

theorem step_four (low : 0x10000 ≤ n) (high : n < 0x110000) :
    step (UInt8.ofNat (0xF0 + n / 262144))
        (UInt8.ofNat (0x80 + n / 4096 % 64) :: UInt8.ofNat (0x80 + n / 64 % 64) ::
          UInt8.ofNat (0x80 + n % 64) :: rest) =
      (some (Char.ofNat n), rest) := by
  have first := UInt8.toNat_ofNat_of_lt' (show 0xF0 + n / 262144 < 256 by omega)
  have second := UInt8.toNat_ofNat_of_lt' (show 0x80 + n / 4096 % 64 < 256 by omega)
  have third := UInt8.toNat_ofNat_of_lt' (show 0x80 + n / 64 % 64 < 256 by omega)
  have fourth := UInt8.toNat_ofNat_of_lt' (show 0x80 + n % 64 < 256 by omega)
  have wide : ¬ 0xF0 + n / 262144 < 0x80 := by omega
  have two : ¬ 0xF0 + n / 262144 ≤ 0xDF := by omega
  have three : ¬ 0xF0 + n / 262144 ≤ 0xEF := by omega
  have four : 0xF0 ≤ 0xF0 + n / 262144 ∧ 0xF0 + n / 262144 ≤ 0xF4 := by omega
  have continued (m : Nat) : 0x80 ≤ 0x80 + m % 64 ∧ 0x80 + m % 64 ≤ 0xBF := by omega
  have allowed : isSecond (UInt8.ofNat (0xF0 + n / 262144)) (UInt8.ofNat (0x80 + n / 4096 % 64)) =
      true := by
    simp only [isSecond, first, second]
    grind
  have whole : (((0xF0 + n / 262144 - 0xF0) * 64 + (0x80 + n / 4096 % 64 - 0x80)) * 64 +
      (0x80 + n / 64 % 64 - 0x80)) * 64 + (0x80 + n % 64 - 0x80) = n := by omega
  simp only [step, allowed, isContinuation, assemble, first, second, third, fourth, wide, two,
    three, four, continued, decide_true, decide_false, Bool.and_self, Bool.and_false,
    Bool.false_eq_true, if_true, if_false, List.foldl_cons, List.foldl_nil, whole]

/-! ### Reading back -/

/-- A reading step on the bytes of a character stops behind them. -/
theorem step_encodeChar (c : Char) (rest : Bytes) : ∃ first more,
    encodeChar c = first :: more ∧ step first (more ++ rest) = (some c, rest) := by
  have valid : c.toNat < 0xD800 ∨ 0xDFFF < c.toNat ∧ c.toNat < 0x110000 := c.valid
  have back : Char.ofNat c.toNat = c := Char.ofNat_toNat c
  unfold encodeChar
  generalize c.toNat = n at valid back
  subst back
  by_cases one : n < 0x80
  · refine ⟨UInt8.ofNat n, [], by simp only [one, if_true], ?_⟩
    simp only [step, UInt8.toNat_ofNat_of_lt' (show n < 256 by omega), one, if_true, List.nil_append]
  · by_cases two : n < 0x800
    · exact ⟨_, _, by simp only [one, two, if_true, if_false]; rfl,
        step_two (Nat.le_of_not_lt one) two⟩
    · by_cases three : n < 0x10000
      · exact ⟨_, _, by simp only [one, two, three, if_true, if_false]; rfl,
          step_three (Nat.le_of_not_lt two) three (by omega)⟩
      · exact ⟨_, _, by simp only [one, two, three, if_false]; rfl,
          step_four (Nat.le_of_not_lt three) (by omega)⟩

/-- A reading begins with the characters that are written at the front. -/
theorem decodeCharsLossy_append (cs : List Char) (rest : Bytes) :
    decodeCharsLossy (encodeChars cs ++ rest) = cs ++ decodeCharsLossy rest := by
  induction cs with
  | nil => rfl
  | cons c cs ih =>
      obtain ⟨first, more, bytes, read⟩ := step_encodeChar c (encodeChars cs ++ rest)
      rw [encodeChars, List.flatMap_cons, bytes, List.cons_append, List.cons_append,
        List.append_assoc]
      rw [decodeCharsLossy, show cs.flatMap encodeChar = encodeChars cs from rfl, read, ih]
      rfl

theorem decodeLossy_append (s : String) (rest : Bytes) :
    decodeLossy (encode s ++ rest) = s ++ decodeLossy rest := by
  rw [decodeLossy, encode, decodeCharsLossy_append, String.ofList_append, String.ofList_toList]
  rfl

@[simp]
theorem decodeLossy_encode (s : String) : decodeLossy (encode s) = s := by
  have read := decodeLossy_append s []
  rw [List.append_nil] at read
  rw [read, decodeLossy, decodeCharsLossy]
  simp

theorem decodeChars?_encodeChars (cs : List Char) : decodeChars? (encodeChars cs) = some cs := by
  induction cs with
  | nil => rw [encodeChars, List.flatMap_nil, decodeChars?]
  | cons c cs ih =>
      obtain ⟨first, more, bytes, read⟩ := step_encodeChar c (encodeChars cs)
      rw [encodeChars, List.flatMap_cons, bytes, List.cons_append]
      rw [decodeChars?, show cs.flatMap encodeChar = encodeChars cs from rfl, read, ih]
      rfl

/-- What is written of a text is well-formed and is read as the text. -/
@[simp]
theorem decode?_encode (s : String) : decode? (encode s) = some s := by
  rw [decode?, encode, decodeChars?_encodeChars, Option.map_some, String.ofList_toList]

/-! ### Only what is written is read -/

/-- A reading step that gives a character takes one to four bytes. -/
theorem step_cases {first : UInt8} {bytes rest : Bytes} {c : Char}
    (read : step first bytes = (some c, rest)) :
    (first.toNat < 0x80 ∧ bytes = rest ∧ c = Char.ofNat first.toNat) ∨
    (∃ second, (0xC2 ≤ first.toNat ∧ first.toNat ≤ 0xDF) ∧ isContinuation second = true ∧
      bytes = second :: rest ∧ c = assemble (first.toNat - 0xC0) [second]) ∨
    (∃ second third, (0xE0 ≤ first.toNat ∧ first.toNat ≤ 0xEF) ∧ isSecond first second = true ∧
      isContinuation third = true ∧ bytes = second :: third :: rest ∧
      c = assemble (first.toNat - 0xE0) [second, third]) ∨
    ∃ second third fourth, (0xF0 ≤ first.toNat ∧ first.toNat ≤ 0xF4) ∧
      isSecond first second = true ∧ isContinuation third = true ∧ isContinuation fourth = true ∧
      bytes = second :: third :: fourth :: rest ∧
      c = assemble (first.toNat - 0xF0) [second, third, fourth] := by
  unfold step at read
  grind

theorem bounds_of_isContinuation {b : UInt8} (continues : isContinuation b = true) :
    0x80 ≤ b.toNat ∧ b.toNat ≤ 0xBF := by
  simpa only [isContinuation, Bool.and_eq_true, decide_eq_true_eq] using continues

/-- The second byte leaves out what fewer bytes would do for, surrogates, and what is above all
characters. -/
theorem bounds_of_isSecond {first b : UInt8} (allowed : isSecond first b = true) :
    (0x80 ≤ b.toNat ∧ b.toNat ≤ 0xBF) ∧ (first.toNat = 0xE0 → 0xA0 ≤ b.toNat) ∧
      (first.toNat = 0xED → b.toNat ≤ 0x9F) ∧ (first.toNat = 0xF0 → 0x90 ≤ b.toNat) ∧
      (first.toNat = 0xF4 → b.toNat ≤ 0x8F) := by
  unfold isSecond at allowed
  dsimp only at allowed
  -- One case for each of the four first bytes that narrow the bounds, and one for all others.
  repeat' split at allowed
  all_goals
    simp only [Bool.and_eq_true, decide_eq_true_eq, beq_iff_eq] at *
    omega

theorem toNat_charOfNat (valid : n < 0xD800 ∨ 0xDFFF < n ∧ n < 0x110000) :
    (Char.ofNat n).toNat = n := by
  rw [Char.ofNat, dif_pos valid]
  rfl

/-- A byte is known by its number. -/
theorem ofNat_eq {b : UInt8} (same : n = b.toNat) : UInt8.ofNat n = b := by
  rw [same, UInt8.ofNat_toNat]

/-- The bytes that a reading step takes are those of the character that it gives. -/
theorem encodeChar_of_step {first : UInt8} {bytes rest : Bytes} {c : Char}
    (read : step first bytes = (some c, rest)) : encodeChar c ++ rest = first :: bytes := by
  rcases step_cases read with ⟨low, rfl, same⟩ | ⟨b, lead, next, rfl, same⟩ |
    ⟨b, b', lead, next, last, rfl, same⟩ | ⟨b, b', b'', lead, next, third, last, rfl, same⟩
  · have number : (Char.ofNat first.toNat).toNat = first.toNat := toNat_charOfNat (by omega)
    simp only [same, encodeChar, number, low, if_true, UInt8.ofNat_toNat, List.singleton_append]
  · have second := bounds_of_isContinuation next
    obtain ⟨n, value⟩ : ∃ n, n = (first.toNat - 0xC0) * 64 + (b.toNat - 0x80) := ⟨_, rfl⟩
    have one : ¬ n < 0x80 := by omega
    have two : n < 0x800 := by omega
    have atFirst : UInt8.ofNat (0xC0 + n / 64) = first := ofNat_eq (by omega)
    have atSecond : UInt8.ofNat (0x80 + n % 64) = b := ofNat_eq (by omega)
    have number : (Char.ofNat n).toNat = n := toNat_charOfNat (by omega)
    simp only [same, assemble, List.foldl_cons, List.foldl_nil, ← value, encodeChar, number, one, two,
      if_true, if_false, atFirst, atSecond, List.cons_append, List.nil_append]
  · obtain ⟨second, overlong, surrogate, -, -⟩ := bounds_of_isSecond next
    have third := bounds_of_isContinuation last
    obtain ⟨n, value⟩ : ∃ n, n =
      ((first.toNat - 0xE0) * 64 + (b.toNat - 0x80)) * 64 + (b'.toNat - 0x80) := ⟨_, rfl⟩
    have two : ¬ n < 0x800 := by omega
    have one : ¬ n < 0x80 := by omega
    have three : n < 0x10000 := by omega
    have atFirst : UInt8.ofNat (0xE0 + n / 4096) = first := ofNat_eq (by omega)
    have atSecond : UInt8.ofNat (0x80 + n / 64 % 64) = b := ofNat_eq (by omega)
    have atThird : UInt8.ofNat (0x80 + n % 64) = b' := ofNat_eq (by omega)
    have number : (Char.ofNat n).toNat = n := toNat_charOfNat (by omega)
    simp only [same, assemble, List.foldl_cons, List.foldl_nil, ← value, encodeChar, number, one, two,
      three, if_true, if_false, atFirst, atSecond, atThird, List.cons_append, List.nil_append]
  · obtain ⟨second, -, -, overlong, above⟩ := bounds_of_isSecond next
    have third := bounds_of_isContinuation third
    have fourth := bounds_of_isContinuation last
    obtain ⟨n, value⟩ : ∃ n, n = (((first.toNat - 0xF0) * 64 + (b.toNat - 0x80)) * 64 +
      (b'.toNat - 0x80)) * 64 + (b''.toNat - 0x80) := ⟨_, rfl⟩
    have three : ¬ n < 0x10000 := by omega
    have two : ¬ n < 0x800 := by omega
    have one : ¬ n < 0x80 := by omega
    have atFirst : UInt8.ofNat (0xF0 + n / 262144) = first := ofNat_eq (by omega)
    have atSecond : UInt8.ofNat (0x80 + n / 4096 % 64) = b := ofNat_eq (by omega)
    have atThird : UInt8.ofNat (0x80 + n / 64 % 64) = b' := ofNat_eq (by omega)
    have atFourth : UInt8.ofNat (0x80 + n % 64) = b'' := ofNat_eq (by omega)
    have number : (Char.ofNat n).toNat = n := toNat_charOfNat (by omega)
    simp only [same, assemble, List.foldl_cons, List.foldl_nil, ← value, encodeChar, number, one, two,
      three, if_false, atFirst, atSecond, atThird, atFourth, List.cons_append, List.nil_append]

/-- A byte string is read exactly as the characters whose bytes it consists of. -/
theorem decodeChars?_eq_some_iff {bytes : Bytes} {cs : List Char} :
    decodeChars? bytes = some cs ↔ bytes = encodeChars cs := by
  constructor
  · intro read
    fun_induction decodeChars? bytes generalizing cs with
    | case1 =>
        cases read
        rfl
    | case2 => cases read
    | case3 b r c taken ih =>
        obtain ⟨tail, rest, rfl⟩ := Option.map_eq_some_iff.mp read
        have front : encodeChar c ++ (step b r).2 = b :: r :=
          encodeChar_of_step (Prod.ext taken rfl)
        rw [← front, ih rest]
        rfl
  · rintro rfl
    exact decodeChars?_encodeChars cs

/-- A text that was read is written with the same bytes. -/
theorem encode_of_decode {bytes : Bytes} {s : String} (read : decode? bytes = some s) :
    encode s = bytes := by
  obtain ⟨cs, chars, rfl⟩ := Option.map_eq_some_iff.mp read
  rw [encode, String.toList_ofList, decodeChars?_eq_some_iff.mp chars]

end RunControl.Utf8
