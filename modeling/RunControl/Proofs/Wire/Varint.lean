import Mathlib.Algebra.Group.Nat.Defs
import Mathlib.Tactic.WLOG
import RunControl.Wire.Varint

/-!
Variable-length numbers read back, and how long they are.

A number is written in as many bytes as its size says (`length_writeVarint`), and is read back
(`readVarint_writeVarint`). What was read may have been longer than what is written, never shorter
(`length_writeVarint_of_read`), and a sum takes no more bytes than its parts
(`length_writeVarint_add_le`). With these two a message that was read is not much longer when it is
written again.
-/

namespace RunControl.Wire

open Utf8 (Bytes)

variable {groups n m : Nat} {bytes rest : Bytes}

theorem toNat_ofNat_low (small : n < 128) : (UInt8.ofNat n).toNat = n :=
  UInt8.toNat_ofNat_of_lt' (show n < 256 by omega)

theorem toNat_ofNat_more (n : Nat) : (UInt8.ofNat (n % 128 + 128)).toNat = n % 128 + 128 :=
  UInt8.toNat_ofNat_of_lt' (show n % 128 + 128 < 256 by omega)

/-- A further group gives room for seven bits. -/
theorem room_succ (groups : Nat) : 2 ^ (7 * (groups + 1) + 1) = 128 * 2 ^ (7 * groups + 1) := by
  rw [show 7 * (groups + 1) + 1 = 7 + (7 * groups + 1) by omega, Nat.pow_add]

/-! ### Reading back -/

/-- `Spelled groups n bytes`: the bytes are a spelling of `n` in at most `groups` groups. The last
group that there can be has room for one bit only, so that ten groups have room for 64. -/
inductive Spelled : Nat → Nat → Bytes → Prop where
  | last {groups : Nat} {b : UInt8} (small : b.toNat < 128) (fits : groups = 0 → b.toNat < 2) :
      Spelled (groups + 1) b.toNat [b]
  | more {groups n : Nat} {b : UInt8} {bytes : Bytes} (large : 128 ≤ b.toNat)
      (higher : Spelled groups n bytes) :
      Spelled (groups + 1) (b.toNat - 128 + 128 * n) (b :: bytes)

/-- A number is read in whatever spelling, and nothing that follows it. -/
theorem Spelled.read (spelled : Spelled groups n bytes) (rest : Bytes) :
    readGroups groups (bytes ++ rest) = some (n, rest) := by
  induction spelled with
  | last small fits =>
      rw [List.singleton_append, readGroups, if_pos small, if_neg]
      rintro ⟨only, two⟩
      have := fits only
      omega
  | more large _ ih =>
      rw [List.cons_append, readGroups, if_neg (by omega), ih]
      rfl

theorem spelled_small (small : n < 128) (fits : groups = 0 → n < 2) :
    Spelled (groups + 1) n [UInt8.ofNat n] := by
  have byte := toNat_ofNat_low small
  have spelled : Spelled (groups + 1) _ [UInt8.ofNat n] := .last (by omega) (by omega)
  rwa [byte] at spelled

/-- What is written of a number is one of its spellings. -/
theorem spelled_writeGroups (groups : Nat) (fits : n < 2 ^ (7 * groups + 1)) :
    Spelled (groups + 1) n (writeGroups (groups + 1) n) := by
  induction groups generalizing n with
  | zero =>
      rw [writeGroups, if_pos (by omega)]
      exact spelled_small (by omega) fun _ => fits
  | succ groups ih =>
      rw [writeGroups]
      split
      · rename_i small
        exact spelled_small small nofun
      · rw [room_succ] at fits
        have byte := toNat_ofNat_more n
        have spelled := Spelled.more (b := UInt8.ofNat (n % 128 + 128)) (by omega)
          (ih (n := n / 128) (by omega))
        have whole : n % 128 + 128 - 128 + 128 * (n / 128) = n := by omega
        rwa [byte, whole] at spelled

theorem spelled_writeVarint (fits : n < UInt64.size) : Spelled 10 n (writeVarint n) :=
  spelled_writeGroups 9 fits

/-- A number below 2^64 is read back, whatever follows it. -/
theorem readVarint_writeVarint (fits : n < UInt64.size) (rest : Bytes) :
    readVarint (writeVarint n ++ rest) = some (n, rest) :=
  (spelled_writeVarint fits).read rest

/-! ### What can be read -/

/-- A number that is read has a first byte, which is all of it or stands before a number of one
group less. -/
theorem readGroups_cases (read : readGroups (groups + 1) bytes = some (n, rest)) :
    (∃ b, bytes = b :: rest ∧ n = b.toNat ∧ n < 128 ∧ (groups = 0 → n < 2)) ∨
      ∃ b high tail, bytes = b :: tail ∧ readGroups groups tail = some (high, rest) ∧
        128 ≤ b.toNat ∧ n = b.toNat - 128 + 128 * high := by
  cases bytes with
  | nil => cases read
  | cons b tail =>
      rw [readGroups] at read
      split at read
      · rename_i small
        split at read
        · cases read
        · rename_i fits
          cases read
          exact .inl ⟨b, rfl, rfl, small, fun last => by omega⟩
      · rename_i more
        obtain ⟨⟨high, after⟩, later, same⟩ := Option.map_eq_some_iff.mp read
        cases same
        exact .inr ⟨b, high, tail, rfl, later, by omega, rfl⟩

theorem lt_of_readGroups (groups : Nat) (read : readGroups (groups + 1) bytes = some (n, rest)) :
    n < 2 ^ (7 * groups + 1) := by
  induction groups generalizing bytes n with
  | zero =>
      obtain ⟨b, -, -, -, fits⟩ | ⟨b, high, tail, -, later, -⟩ := readGroups_cases read
      · exact fits rfl
      · cases later
  | succ groups ih =>
      rw [room_succ]
      obtain ⟨b, -, -, small, -⟩ | ⟨b, high, tail, -, later, more, rfl⟩ := readGroups_cases read
      · have room := Nat.two_pow_pos (7 * groups + 1)
        omega
      · have below := ih later
        have byte := b.toNat_lt
        omega

theorem lt_of_readVarint (read : readVarint bytes = some (n, rest)) : n < UInt64.size :=
  lt_of_readGroups 9 read

/-! ### Lengths -/

theorem length_writeGroups_small (groups : Nat) (small : n < 128) :
    (writeGroups (groups + 1) n).length = 1 := by
  rw [writeGroups, if_pos small, List.length_singleton]

theorem length_writeGroups_large (groups : Nat) (large : 128 ≤ n) :
    (writeGroups (groups + 1) n).length = (writeGroups groups (n / 128)).length + 1 := by
  rw [writeGroups, if_neg (by omega), List.length_cons]

/-- Seven bits fewer are left behind a group. -/
theorem log2_eq_of_large (large : 128 ≤ n) : n.log2 = (n / 128).log2 + 7 := by
  have whole := Nat.log2_self_le (n := n / 128) (by omega)
  have next := Nat.lt_log2_self (n := n / 128)
  have seven : 2 ^ ((n / 128).log2 + 7) = 2 ^ (n / 128).log2 * 128 := Nat.pow_add ..
  have eight : 2 ^ ((n / 128).log2 + 7 + 1) = 2 ^ ((n / 128).log2 + 1) * 128 := by
    rw [Nat.pow_succ, seven, Nat.pow_succ, Nat.mul_right_comm]
  rw [Nat.log2_eq_iff (by omega), seven, eight]
  omega

theorem length_writeGroups (groups : Nat) (fits : n < 2 ^ (7 * (groups + 1))) :
    (writeGroups (groups + 1) n).length = varintSize n := by
  unfold varintSize
  induction groups generalizing n with
  | zero =>
      rw [length_writeGroups_small 0 fits]
      by_cases zero : n = 0
      · rw [zero]
        rfl
      · have bits := (Nat.log2_lt (k := 7) zero).mpr fits
        omega
  | succ groups ih =>
      by_cases small : n < 128
      · rw [length_writeGroups_small _ small]
        by_cases zero : n = 0
        · rw [zero]
          rfl
        · have bits := (Nat.log2_lt (k := 7) zero).mpr small
          omega
      · have room : 2 ^ (7 * (groups + 1 + 1)) = 128 * 2 ^ (7 * (groups + 1)) := by
          rw [show 7 * (groups + 1 + 1) = 7 + 7 * (groups + 1) by omega, Nat.pow_add]
        rw [room] at fits
        have shorter := log2_eq_of_large (n := n) (by omega)
        rw [length_writeGroups_large _ (by omega), ih (by omega)]
        omega

/-- A number of one to ten groups is as long as its size says. -/
theorem length_writeVarint (fits : n < UInt64.size) : (writeVarint n).length = varintSize n :=
  length_writeGroups 9 (Nat.lt_trans fits (by decide))

/-- A number is written in at most as many bytes as it was read from. -/
theorem length_writeGroups_of_read (read : readGroups groups bytes = some (n, rest)) :
    (writeGroups groups n).length + rest.length ≤ bytes.length := by
  induction groups generalizing bytes n with
  | zero => cases read
  | succ groups ih =>
      by_cases small : n < 128
      · have shorter := readGroups_length_lt read
        rw [length_writeGroups_small groups small]
        omega
      · obtain ⟨b, -, -, low, -⟩ | ⟨b, high, tail, rfl, later, more, value⟩ :=
          readGroups_cases read
        · exact absurd low small
        · have byte := b.toNat_lt
          have upper : n / 128 = high := by omega
          have := ih later
          rw [length_writeGroups_large groups (by omega), upper, List.length_cons]
          omega

theorem length_writeVarint_of_read (read : readVarint bytes = some (n, rest)) :
    (writeVarint n).length + rest.length ≤ bytes.length :=
  length_writeGroups_of_read read

/-- A number takes at most one byte, and one more for every 128. -/
theorem length_writeGroups_le (groups n : Nat) : (writeGroups groups n).length ≤ n / 128 + 1 := by
  induction groups generalizing n with
  | zero => exact Nat.zero_le _
  | succ groups ih =>
      rw [writeGroups]
      split
      · exact Nat.le_add_left 1 _
      · have rest := ih (n / 128)
        rw [List.length_cons]
        omega

/-- Of two numbers the larger takes at least as many bytes. -/
theorem length_writeGroups_mono (groups : Nat) (le : n ≤ m) :
    (writeGroups groups n).length ≤ (writeGroups groups m).length := by
  induction groups generalizing n m with
  | zero => exact Nat.le_refl 0
  | succ groups ih =>
      have tail := ih (Nat.div_le_div_right (c := 128) le)
      by_cases large : 128 ≤ n
      · rw [length_writeGroups_large groups large, length_writeGroups_large groups (by omega)]
        omega
      · rw [length_writeGroups_small groups (by omega)]
        by_cases large' : 128 ≤ m
        · rw [length_writeGroups_large groups large']
          omega
        · exact Nat.le_of_eq (length_writeGroups_small groups (by omega)).symm

theorem length_writeVarint_mono (le : n ≤ m) :
    (writeVarint n).length ≤ (writeVarint m).length :=
  length_writeGroups_mono 10 le

theorem length_writeGroups_one (groups : Nat) (small : n < 128) :
    (writeGroups groups n).length ≤ 1 := by
  cases groups with
  | zero => exact Nat.zero_le 1
  | succ groups => exact Nat.le_of_eq (length_writeGroups_small groups small)

/-- A sum takes no more bytes than its parts, even with one more. The one is what a group carries
over to the next, and the induction is on the groups. -/
theorem length_writeGroups_add_le (groups n m : Nat) :
    (writeGroups groups (n + m + 1)).length ≤
      (writeGroups groups n).length + (writeGroups groups m).length := by
  induction groups generalizing n m with
  | zero => exact Nat.le_refl 0
  | succ groups ih =>
      wlog le : m ≤ n generalizing n m
      · rw [Nat.add_comm n m, Nat.add_comm (List.length _)]
        exact this m n (by omega)
      by_cases small : n < 128
      · -- Two groups at most, and each part has one.
        have first := length_writeGroups_small groups small
        have second := length_writeGroups_small groups (n := m) (by omega)
        have most : (writeGroups (groups + 1) 255).length = (writeGroups groups 1).length + 1 :=
          length_writeGroups_large groups (by omega)
        have upper := length_writeGroups_one groups (n := 1) (by omega)
        have := length_writeGroups_mono (groups + 1) (show n + m + 1 ≤ 255 by omega)
        omega
      · have total := length_writeGroups_large groups (n := n + m + 1) (by omega)
        have first := length_writeGroups_large groups (n := n) (by omega)
        have carried : (writeGroups groups ((n + m + 1) / 128)).length ≤
            (writeGroups groups (n / 128 + m / 128 + 1)).length :=
          length_writeGroups_mono groups (by omega)
        have parts := ih (n / 128) (m / 128)
        by_cases low : m < 128
        · have nothing := length_writeGroups_one groups (n := m / 128) (by omega)
          have second := length_writeGroups_small groups low
          omega
        · have second := length_writeGroups_large groups (n := m) (by omega)
          omega

theorem length_writeVarint_add_le (n m : Nat) :
    (writeVarint (n + m)).length ≤ (writeVarint n).length + (writeVarint m).length :=
  Nat.le_trans (length_writeVarint_mono (Nat.le_succ _)) (length_writeGroups_add_le 10 n m)

end RunControl.Wire
