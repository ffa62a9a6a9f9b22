import RunControl.Proofs.Reading
import RunControl.Proofs.Text.Utf8
import RunControl.Proofs.Wire.Varint
import RunControl.Wire.Field

/-!
Keys, lengths and payloads read back.

`Payload.Lawful` is what fields need of their payloads: what is written is read back, is as long as
its size says, and grows little when it is written again after it was read from other bytes.
-/

namespace RunControl.Wire

open Utf8 (Bytes)

variable {α β ρ : Type} {bytes content rest : Bytes} {n tag : Nat} {form : WireType}

/-! ### Numbers and lengths -/

theorem number_eq_ok : number bytes = .ok (n, rest) ↔ readVarint bytes = some (n, rest) := by
  unfold number
  cases readVarint bytes with
  | none => simp [fail]
  | some pair => simp

theorem Spelled.number (spelled : Spelled 10 n bytes) (rest : Bytes) :
    number (bytes ++ rest) = .ok (n, rest) :=
  number_eq_ok.mpr (spelled.read rest)

theorem number_writeVarint (fits : n < UInt64.size) (rest : Bytes) :
    number (writeVarint n ++ rest) = .ok (n, rest) :=
  (spelled_writeVarint fits).number rest

theorem length_of_number (read : number bytes = .ok (n, rest)) :
    (writeVarint n).length + rest.length ≤ bytes.length :=
  length_writeVarint_of_read (number_eq_ok.mp read)

theorem one_le_length_writeVarint (n : Nat) : 1 ≤ (writeVarint n).length :=
  length_writeVarint_mono (Nat.zero_le n)

theorem length_writeDelimited (content : Bytes) :
    (writeDelimited content).length = (writeVarint content.length).length + content.length :=
  List.length_append

theorem length_writeDelimited_le (content : Bytes) :
    (writeDelimited content).length ≤ content.length + content.length / 128 + 1 := by
  have front : (writeVarint content.length).length ≤ content.length / 128 + 1 :=
    length_writeGroups_le 10 content.length
  rw [length_writeDelimited]
  omega

theorem delimitedSize_eq (fits : (writeDelimited content).length < UInt64.size) :
    delimitedSize content.length = (writeDelimited content).length := by
  rw [length_writeDelimited] at fits ⊢
  rw [length_writeVarint (by omega), delimitedSize]

theorem delimited_writeDelimited (fits : content.length < UInt64.size) (rest : Bytes) :
    delimited (writeDelimited content ++ rest) = .ok (content, rest) := by
  have enough : ¬ (content ++ rest).length < content.length := by
    rw [List.length_append]
    omega
  unfold delimited
  rw [writeDelimited, List.append_assoc, number_writeVarint fits, ok_bind]
  dsimp only
  rw [if_neg enough, List.take_left, List.drop_left]

/-- Bytes with their length in front were read from no fewer bytes. -/
theorem length_of_delimited (read : delimited bytes = .ok (content, rest)) :
    (writeDelimited content).length + rest.length ≤ bytes.length := by
  obtain ⟨⟨n, after⟩, prefixed, taken⟩ := bind_eq_ok.mp read
  have front := length_of_number prefixed
  dsimp only at taken
  split at taken
  · cases taken
  · cases taken
    rw [length_writeDelimited, List.length_take, Nat.min_eq_left (by omega), List.length_drop]
    omega

/-! ### Keys -/

theorem WireType.code_lt (form : WireType) : form.code < 8 := by
  cases form <;> decide

/-- The form of a payload does not change the length of its key. -/
theorem varintSize_key (positive : 0 < tag) (form : WireType) :
    varintSize (8 * tag + form.code) = varintSize (8 * tag) := by
  have code := form.code_lt
  have least := Nat.log2_self_le (n := tag) (by omega)
  have most := Nat.lt_log2_self (n := tag)
  have low : 2 ^ (tag.log2 + 3) = 2 ^ tag.log2 * 8 := Nat.pow_add ..
  have high : 2 ^ (tag.log2 + 3 + 1) = 2 ^ (tag.log2 + 1) * 8 := by
    rw [Nat.pow_succ, low, Nat.pow_succ, Nat.mul_right_comm]
  have bits (extra : Nat) (less : extra < 8) : (8 * tag + extra).log2 = tag.log2 + 3 := by
    rw [Nat.log2_eq_iff (by omega), low, high]
    omega
  have plain : (8 * tag).log2 = tag.log2 + 3 := bits 0 (by omega)
  rw [varintSize, varintSize, bits _ code, plain]

theorem length_writeKey (positive : 0 < tag) (fits : tag < 2 ^ 29) (form : WireType) :
    (writeKey tag form).length = varintSize (8 * tag) := by
  have code := form.code_lt
  have small : 8 * tag + form.code < UInt64.size := by
    rw [show UInt64.size = 18446744073709551616 from rfl]
    omega
  rw [writeKey, length_writeVarint small, varintSize_key positive]

/-- `IsKey tag form bytes`: the bytes are a key with a number that keys can have, in any spelling. -/
structure IsKey (tag : Nat) (form : WireType) (bytes : Bytes) : Prop where
  positive : 0 < tag
  fits : tag < 2 ^ 29
  spelled : Spelled 10 (8 * tag + form.code) bytes

theorem IsKey.read (isKey : IsKey tag form bytes) (rest : Bytes) :
    readKey (bytes ++ rest) = .ok (tag, form, rest) := by
  obtain ⟨positive, fits, spelled⟩ := isKey
  have code := form.code_lt
  have key : ¬ UInt32.size ≤ 8 * tag + form.code := by
    rw [show UInt32.size = 4294967296 from rfl]
    omega
  have low : (8 * tag + form.code) % 8 = form.code := by omega
  have high : (8 * tag + form.code) / 8 = tag := by omega
  unfold readKey
  rw [spelled.number, ok_bind]
  simp only [key, if_false, low, high, WireType.ofCode?_code]
  rw [if_neg (by omega)]

theorem isKey_writeKey (positive : 0 < tag) (fits : tag < 2 ^ 29) (form : WireType) :
    IsKey tag form (writeKey tag form) := by
  have code := form.code_lt
  refine ⟨positive, fits, spelled_writeVarint ?_⟩
  rw [show UInt64.size = 18446744073709551616 from rfl]
  omega

theorem readKey_writeKey (positive : 0 < tag) (fits : tag < 2 ^ 29) (form : WireType)
    (rest : Bytes) : readKey (writeKey tag form ++ rest) = .ok (tag, form, rest) :=
  (isKey_writeKey positive fits form).read rest

theorem WireType.code_of_ofCode? {code : Nat} (known : WireType.ofCode? code = some form) :
    form.code = code := by
  unfold WireType.ofCode? at known
  split at known <;> cases known <;> rfl

theorem length_of_readKey (read : readKey bytes = .ok (tag, form, rest)) :
    varintSize (8 * tag) + rest.length ≤ bytes.length := by
  obtain ⟨⟨key, after⟩, taken, parts⟩ := bind_eq_ok.mp read
  have front := length_of_number taken
  have fits := lt_of_readVarint (number_eq_ok.mp taken)
  dsimp only at parts
  split at parts
  · cases parts
  · split at parts
    · cases parts
    · rename_i form' known
      split at parts
      · cases parts
      · rename_i some
        cases parts
        have code := WireType.code_of_ofCode? known
        have whole : key = 8 * (key / 8) + form.code := by omega
        rw [length_writeVarint fits, whole, varintSize_key (by omega)] at front
        exact front

/-! ### Payloads -/

/-- What fields need of the values of a payload. Where messages may nest `need` deep, each value is
read back, over the value that stands for none and before whatever bytes. It is as long as its size
says. Written again after it was read, it takes at most twice the bytes that it was read from, and
those of the value that it was read over. -/
structure Payload.Lawful (need : Nat) (p : Payload α) : Prop where
  isZero_iff : ∀ a, p.isZero a = true ↔ a = p.zero
  length_zero : (p.write p.zero).length = 1
  size_eq : ∀ a, (p.write a).length < UInt64.size → p.size a = (p.write a).length
  read_write : ∀ depth a rest, need ≤ depth → (p.write a).length < UInt64.size →
    p.read depth p.zero (p.write a ++ rest) = .ok (a, rest)
  growth : ∀ depth before bytes a rest, p.read depth before bytes = .ok (a, rest) →
    (p.write a).length + 2 * rest.length ≤ (p.write before).length + 2 * bytes.length

theorem Payload.ofNumber_lawful [DecidableEq α] {zero : α} {toNat : α → Nat} {ofNat : Nat → α}
    (need : Nat) (start : toNat zero = 0) (fits : ∀ a, toNat a < UInt64.size)
    (back : ∀ a, ofNat (toNat a) = a)
    (short : ∀ n, n < UInt64.size →
      (writeVarint (toNat (ofNat n))).length ≤ 2 * (writeVarint n).length) :
    (Payload.ofNumber zero toNat ofNat).Lawful need where
  isZero_iff a := decide_eq_true_iff
  length_zero := by
    show (writeVarint (toNat zero)).length = 1
    rw [start]
    rfl
  size_eq a _ := (length_writeVarint (fits a)).symm
  read_write depth a rest _ _ := by
    show (number (writeVarint (toNat a) ++ rest) >>= fun r => pure (ofNat r.1, r.2)) = _
    rw [number_writeVarint (fits a), ok_bind]
    exact congrArg (fun a => Except.ok (a, rest)) (back a)
  growth depth before bytes a rest read := by
    obtain ⟨⟨n, after⟩, taken, same⟩ := bind_eq_ok.mp read
    cases same
    have front := length_of_number taken
    have := short n (lt_of_readVarint (number_eq_ok.mp taken))
    show (writeVarint (toNat (ofNat n))).length + 2 * rest.length ≤
      (writeVarint (toNat before)).length + 2 * bytes.length
    omega

theorem Payload.bool_lawful (need : Nat) : Payload.bool.Lawful need := by
  apply ofNumber_lawful
  case start => rfl
  case fits =>
    intro b
    cases b <;> decide
  case back =>
    intro b
    cases b <;> rfl
  case short =>
    intro n _
    have one := one_le_length_writeVarint n
    have bit : (writeVarint (n != 0).toNat).length = 1 := by
      cases n != 0 <;> rfl
    omega

theorem Payload.int64_lawful (need : Nat) : Payload.int64.Lawful need := by
  apply ofNumber_lawful
  case start => rfl
  case fits => exact fun n => n.toUInt64.toNat_lt
  case back => exact fun n => congrArg Int64.ofUInt64 (UInt64.ofNat_toNat (x := n.toUInt64))
  case short =>
    intro n fits
    rw [Int64.toUInt64_ofNat', UInt64.toNat_ofNat_of_lt' fits]
    omega

theorem Payload.uint32_lawful (need : Nat) : Payload.uint32.Lawful need := by
  apply ofNumber_lawful
  case start => rfl
  case fits => exact fun n => Nat.lt_trans n.toNat_lt (by decide)
  case back => exact fun n => UInt32.ofNat_toNat
  case short =>
    intro n _
    have le : (UInt32.ofNat n).toNat ≤ n := by
      rw [UInt32.toNat_ofNat']
      exact Nat.mod_le ..
    have := length_writeVarint_mono le
    omega

/-- A number as an integer of 32 bits and then as one of 64: with its sign, which is the 32nd bit. -/
theorem toNat_toInt64_ofNat (n : Nat) : (Int32.ofNat n).toInt64.toUInt64.toNat =
    if n % 2 ^ 32 < 2 ^ 31 then n % 2 ^ 32 else n % 2 ^ 32 + (2 ^ 64 - 2 ^ 32) := by
  show (BitVec.signExtend 64 (BitVec.ofNat 32 n)).toNat = _
  rw [BitVec.toNat_signExtend, BitVec.toNat_setWidth_of_le (by decide), BitVec.toNat_ofNat,
    BitVec.msb_eq_decide, BitVec.toNat_ofNat]
  by_cases sign : n % 2 ^ 32 < 2 ^ 31
  · rw [if_pos sign, if_neg, Nat.add_zero]
    simpa using sign
  · rw [if_neg sign, if_pos]
    simpa using sign

theorem Payload.int32_lawful (need : Nat) : Payload.int32.Lawful need := by
  apply ofNumber_lawful
  case start => rfl
  case fits => exact fun n => n.toInt64.toUInt64.toNat_lt
  case back =>
    intro n
    refine Eq.trans (congrArg (fun bits => Int32.ofUInt32 (UInt32.ofBitVec bits)) ?_)
      n.toInt32_toInt64
    rw [BitVec.signExtend_eq_setWidth_of_le _ (by decide)]
    exact BitVec.ofNat_toNat ..
  case short =>
    -- A negative integer takes ten bytes, but it takes five even where only 32 bits were written.
    intro n fits
    rw [toNat_toInt64_ofNat]
    split
    · have := length_writeVarint_mono (Nat.mod_le n (2 ^ 32))
      omega
    · have read : (writeVarint (2 ^ 31)).length = 5 := rfl
      have written : (writeVarint (UInt64.size - 1)).length = 10 := rfl
      have least := length_writeVarint_mono (show 2 ^ 31 ≤ n by omega)
      have most := length_writeVarint_mono
        (show n % 2 ^ 32 + (2 ^ 64 - 2 ^ 32) ≤ UInt64.size - 1 by
          rw [show UInt64.size = 2 ^ 64 from rfl]
          omega)
      omega

theorem Payload.bytes_lawful (need : Nat) : Payload.bytes.Lawful need where
  isZero_iff content := List.isEmpty_iff
  length_zero := rfl
  size_eq content fits := delimitedSize_eq fits
  read_write depth content rest _ fits := by
    rw [show Payload.bytes.write content = writeDelimited content from rfl] at fits ⊢
    rw [length_writeDelimited] at fits
    exact delimited_writeDelimited (by omega) rest
  growth depth before bytes content rest read := by
    have front := length_of_delimited read
    show (writeDelimited content).length + 2 * rest.length ≤ _
    omega

theorem Payload.text_lawful (need : Nat) : Payload.text.Lawful need where
  isZero_iff s := decide_eq_true_iff
  length_zero := rfl
  size_eq s fits := delimitedSize_eq fits
  read_write depth s rest _ fits := by
    rw [show Payload.text.write s = writeDelimited (Utf8.encode s) from rfl] at fits ⊢
    rw [length_writeDelimited] at fits
    show delimited _ >>= _ = _
    rw [delimited_writeDelimited (by omega), ok_bind]
    dsimp only
    rw [Utf8.decode?_encode]
    rfl
  growth depth before bytes s rest read := by
    obtain ⟨⟨content, after⟩, taken, same⟩ := bind_eq_ok.mp read
    have front := length_of_delimited taken
    dsimp only at same
    split at same
    · rename_i s' decoded
      cases same
      have same := Utf8.encode_of_decode decoded
      show (writeDelimited (Utf8.encode s)).length + 2 * rest.length ≤ _
      rw [same]
      omega
    · cases same

end RunControl.Wire
