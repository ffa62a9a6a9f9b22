import RunControl.Text.Utf8

/-!
Variable-length numbers: seven bits a byte, lowest first, with the top bit set on
every byte but the last.

A number of 64 bits takes one to ten bytes. The reader also takes longer spellings of
a number up to ten bytes, but no bit beyond the 64th.
-/

namespace RunControl.Wire

open Utf8 (Bytes)

/-- The bytes of a number in at most `groups` groups of seven bits. -/
def writeGroups : Nat → Nat → Bytes
  | 0, _ => []
  | groups + 1, n =>
    if n < 128 then [UInt8.ofNat n]
    else UInt8.ofNat (n % 128 + 128) :: writeGroups groups (n / 128)

/-- The bytes of a number below 2^64. -/
def writeVarint (n : Nat) : Bytes :=
  writeGroups 10 n

/-- The length of `writeVarint`: one byte for every seven bits begun. -/
def varintSize (n : Nat) : Nat :=
  n.log2 / 7 + 1

/-- A number in at most `groups` groups, and the bytes after it. -/
def readGroups : Nat → Bytes → Option (Nat × Bytes)
  | 0, _ => none
  | _ + 1, [] => none
  | groups + 1, b :: r =>
    if b.toNat < 128 then
      if groups = 0 ∧ 2 ≤ b.toNat then none else some (b.toNat, r)
    else (readGroups groups r).map fun (n, rest) => (b.toNat - 128 + 128 * n, rest)

/-- A number below 2^64, and the bytes after it. -/
def readVarint (bytes : Bytes) : Option (Nat × Bytes) :=
  readGroups 10 bytes

theorem readGroups_length_lt {groups n : Nat} {bytes rest : Bytes}
    (h : readGroups groups bytes = some (n, rest)) : rest.length < bytes.length := by
  induction groups generalizing bytes n with
  | zero => cases h
  | succ groups ih =>
    cases bytes with
    | nil => cases h
    | cons b r =>
      rw [readGroups] at h
      split at h
      · split at h
        · cases h
        · simp only [Option.some.injEq, Prod.mk.injEq] at h
          simp [h.2]
      · obtain ⟨⟨m, rest'⟩, hm, heq⟩ := Option.map_eq_some_iff.mp h
        simp only [Prod.mk.injEq] at heq
        obtain ⟨_, rfl⟩ := heq
        have := ih hm
        simp only [List.length_cons]
        omega

example : readVarint (writeVarint 300) = some (300, []) := by decide
example : writeVarint (UInt64.size - 1) = [255, 255, 255, 255, 255, 255, 255, 255, 255, 1] := by
  decide
example : readVarint [128, 128, 0, 7] = some (0, [7]) := by decide

end RunControl.Wire
