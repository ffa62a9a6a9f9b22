import Mathlib.Data.List.Nodup
import RunControl.Proofs.Wire.Payload
import RunControl.Wire.Message

/-!
Rows of fields read back into records.

A reader takes one field after another (`Merges`). What stands in a row of bytes is taken whatever
comes after it (`Takes`), so a record may stand inside of another one, and is taken from between its
length and the next field (`mergeDelimited_writeDelimited`). In the other direction no field that is
taken adds more to a record than twice its bytes (`mergeUntil_growth`).
-/

namespace RunControl.Wire

open Utf8 (Bytes)

variable {α β ρ : Type} {step : ρ → Bytes → Except DecodeError (ρ × Bytes)} {r r' r'' acc : ρ}
  {bytes more rest last : Bytes} {fields : List (Field ρ)}
  {blame : Field ρ → DecodeError → DecodeError} {need depth limit fuel n tag : Nat}

/-! ### One field after another -/

/-- `Merges step r bytes r' rest`: field by field, each of some bytes, a reader comes from `r`
before `bytes` to `r'` before `rest`. -/
inductive Merges (step : ρ → Bytes → Except DecodeError (ρ × Bytes)) :
    ρ → Bytes → ρ → Bytes → Prop where
  | refl (r : ρ) (bytes : Bytes) : Merges step r bytes r bytes
  | step {r mid r' : ρ} {bytes rest last : Bytes} (taken : step r bytes = .ok (mid, rest))
      (shorter : rest.length < bytes.length) (further : Merges step mid rest r' last) :
      Merges step r bytes r' last

theorem Merges.length_le (merges : Merges step r bytes r' rest) : rest.length ≤ bytes.length := by
  induction merges with
  | refl => exact Nat.le_refl _
  | step _ shorter _ ih => omega

theorem Merges.trans (first : Merges step r bytes r' rest) (second : Merges step r' rest r'' last) :
    Merges step r bytes r'' last := by
  induction first with
  | refl => exact second
  | step taken shorter _ ih => exact .step taken shorter (ih second)

/-- A reader that is to stop at some length stops there. -/
theorem mergeUntil_of_merges (merges : Merges step r bytes r' rest)
    (enough : bytes.length ≤ fuel + rest.length) :
    mergeUntil step rest.length fuel r bytes = .ok (r', rest) := by
  induction merges generalizing fuel with
  | refl r bytes =>
      cases fuel with
      | zero => rfl
      | succ fuel => rw [mergeUntil, if_pos (Nat.le_refl _)]
  | step taken shorter further ih =>
      have later := further.length_le
      cases fuel with
      | zero => omega
      | succ fuel =>
          rw [mergeUntil, if_neg (by omega), taken, ok_bind]
          exact ih (by omega)

/-- Whatever comes after them, the bytes take a reader from one record to another. -/
def Takes (step : ρ → Bytes → Except DecodeError (ρ × Bytes)) (r : ρ) (bytes : Bytes) (r' : ρ) :
    Prop :=
  ∀ rest, Merges step r (bytes ++ rest) r' rest

theorem Takes.nil (step : ρ → Bytes → Except DecodeError (ρ × Bytes)) (r : ρ) :
    Takes step r [] r :=
  fun rest => .refl r rest

theorem Takes.append (first : Takes step r bytes r') (second : Takes step r' more r'') :
    Takes step r (bytes ++ more) r'' := by
  intro rest
  rw [List.append_assoc]
  exact (first _).trans (second rest)

/-- A record with its length in front is taken, and nothing behind it. -/
theorem mergeDelimited_writeDelimited (takes : Takes step r bytes r')
    (fits : bytes.length < UInt64.size) (rest : Bytes) :
    mergeDelimited step r (writeDelimited bytes ++ rest) = .ok (r', rest) := by
  have length : (bytes ++ rest).length = bytes.length + rest.length := List.length_append
  have limit : (bytes ++ rest).length - bytes.length = rest.length := by omega
  unfold mergeDelimited
  rw [writeDelimited, List.append_assoc, number_writeVarint fits, ok_bind]
  dsimp only
  rw [if_neg (by omega), limit, mergeUntil_of_merges (takes rest) (by omega), ok_bind]
  exact if_pos rfl

/-! ### How much a record grows -/

/-- What no field that is taken changes by more than twice its bytes, no row of fields does. -/
theorem mergeUntil_growth (weight : ρ → Nat)
    (each : ∀ r bytes r' rest, step r bytes = .ok (r', rest) →
      weight r' + 2 * rest.length ≤ weight r + 2 * bytes.length)
    (merged : mergeUntil step limit fuel r bytes = .ok (r', rest)) :
    weight r' + 2 * rest.length ≤ weight r + 2 * bytes.length := by
  induction fuel generalizing r bytes with
  | zero =>
      cases merged
      exact Nat.le_refl _
  | succ fuel ih =>
      rw [mergeUntil] at merged
      split at merged
      · cases merged
        exact Nat.le_refl _
      · obtain ⟨⟨mid, between⟩, taken, further⟩ := bind_eq_ok.mp merged
        exact Nat.le_trans (ih further) (each _ _ _ _ taken)

/-- Nor does a record with its length in front, even if the length is counted. -/
theorem mergeDelimited_growth (weight : ρ → Nat)
    (each : ∀ r bytes r' rest, step r bytes = .ok (r', rest) →
      weight r' + 2 * rest.length ≤ weight r + 2 * bytes.length)
    (merged : mergeDelimited step r bytes = .ok (r', rest)) :
    (writeVarint (weight r')).length + weight r' + 2 * rest.length ≤
      (writeVarint (weight r)).length + weight r + 2 * bytes.length := by
  obtain ⟨⟨n, after⟩, prefixed, inside⟩ := bind_eq_ok.mp merged
  have front := length_of_number prefixed
  dsimp only at inside
  split at inside
  · cases inside
  · obtain ⟨⟨mid, between⟩, taken, ended⟩ := bind_eq_ok.mp inside
    dsimp only at ended
    split at ended
    · rename_i whole
      cases ended
      have grown := mergeUntil_growth weight each taken
      have counted := length_writeVarint_mono (show weight r' ≤ weight r + (n + n) by omega)
      have parts := length_writeVarint_add_le (weight r) (n + n)
      have halves := length_writeVarint_add_le n n
      omega
    · cases ended

/-! ### Unknown fields -/

theorem length_of_advance (passed : advance n bytes = .ok rest) : rest.length ≤ bytes.length := by
  unfold advance at passed
  split at passed
  · cases passed
  · cases passed
    rw [List.length_drop]
    omega

/-- Skipping goes on, for single fields and for groups alike. -/
theorem length_of_skip (fuel : Nat) :
    (∀ depth form tag bytes rest, skip fuel depth form tag bytes = .ok rest →
      rest.length ≤ bytes.length) ∧
    ∀ depth tag bytes rest, skipGroup fuel depth tag bytes = .ok rest →
      rest.length ≤ bytes.length := by
  induction fuel with
  | zero => exact ⟨fun _ _ _ _ _ skipped => (nomatch skipped), fun _ _ _ _ skipped => (nomatch skipped)⟩
  | succ fuel ih =>
      obtain ⟨single, group⟩ := ih
      constructor
      · intro depth form tag bytes rest skipped
        cases depth with
        | zero => cases skipped
        | succ depth =>
            cases form with
            | varint =>
                obtain ⟨⟨n, after⟩, taken, same⟩ := bind_eq_ok.mp skipped
                obtain rfl : after = rest := Except.ok.inj same
                have := length_of_number taken
                omega
            | lengthDelimited =>
                obtain ⟨⟨n, after⟩, taken, passed⟩ := bind_eq_ok.mp skipped
                have := length_of_number taken
                have := length_of_advance passed
                omega
            | sixtyFourBit => exact length_of_advance skipped
            | thirtyTwoBit => exact length_of_advance skipped
            | startGroup => exact group depth tag bytes rest skipped
            | endGroup => cases skipped
      · intro depth tag bytes rest skipped
        obtain ⟨⟨inner, form, after⟩, key, further⟩ := bind_eq_ok.mp skipped
        have front := length_of_readKey key
        dsimp only at further
        split at further
        · split at further
          · cases further
            omega
          · cases further
        · obtain ⟨between, passed, others⟩ := bind_eq_ok.mp further
          have := single depth form inner after between passed
          have := group depth tag between rest others
          omega

/-! ### Fields of a record -/

/-- A reader of a record takes a field with its key as the field takes its payload. -/
def Field.Served (f : Field ρ) (depth : Nat)
    (step : ρ → Bytes → Except DecodeError (ρ × Bytes)) : Prop :=
  ∀ form r bytes r' rest, f.merge depth form r bytes = .ok (r', rest) →
    step r (writeKey f.tag form ++ bytes) = .ok (r', rest)

/-- No other field of a record changes what is written of this one. -/
def Field.Spares (f g : Field ρ) : Prop :=
  ∀ depth form r bytes r' rest, f.merge depth form r bytes = .ok (r', rest) →
    g.write r' = g.write r

/-- What is needed of a field whatever the record: a number that a key can hold, its size, and that
reading a payload adds no more to what is written of the field than twice the bytes. -/
structure Field.Lawful (f : Field ρ) : Prop where
  positive : 0 < f.tag
  fits : f.tag < 2 ^ 29
  size_eq : ∀ r, (f.write r).length < UInt64.size → f.size r = (f.write r).length
  growth : ∀ depth form r bytes r' rest, f.merge depth form r bytes = .ok (r', rest) →
    (f.write r').length + 2 * rest.length ≤
      (f.write r).length + 2 * varintSize (8 * f.tag) + 2 * bytes.length

/-- What is written of a field in `r` takes a reader from `acc` to `acc'`. -/
def Field.Restores (f : Field ρ) (need : Nat) (acc r acc' : ρ) : Prop :=
  ∀ step depth, need ≤ depth → f.Served depth step → (f.write r).length < UInt64.size →
    Takes step acc (f.write r) acc'

/-- `Fills need before fields acc r acc'`: field by field, what is written of `r` takes a reader from
`acc` to `acc'`, and no field changes what is written of the others, of which those in `before` were
filled already. -/
inductive Fills (need : Nat) :
    List (Field ρ) → List (Field ρ) → ρ → ρ → ρ → Prop where
  | nil (before : List (Field ρ)) (acc r : ρ) : Fills need before [] acc r acc
  | cons {f : Field ρ} {before fields : List (Field ρ)} {acc mid r acc' : ρ} (lawful : f.Lawful)
      (spares : ∀ g ∈ before ++ fields, f.Spares g) (restores : f.Restores need acc r mid)
      (others : Fills need (f :: before) fields mid r acc') :
      Fills need before (f :: fields) acc r acc'

/-- The fields of a record, of which nothing is written when it is `blank`: they have different
numbers and restore every record from the blank one. -/
structure Layout (need : Nat) (blank : ρ) (fields : List (Field ρ)) : Prop where
  tags : (fields.map Field.tag).Nodup
  silent : writeFields fields blank = []
  fills : ∀ r, Fills need [] fields blank r r

/-! ### Readers of records -/

/-- The sizes of the parts put together are the size of the whole. -/
theorem totalSize_eq (size : α → Nat) (write : α → Bytes) {items : List α}
    (each : ∀ a ∈ items, (write a).length < UInt64.size → size a = (write a).length)
    (fits : (items.flatMap write).length < UInt64.size) :
    totalSize size items = (items.flatMap write).length := by
  induction items with
  | nil => rfl
  | cons a items ih =>
      rw [List.flatMap_cons, List.length_append] at fits ⊢
      have head := each a (.head _) (by omega)
      have tail := ih (fun b member => each b (.tail _ member)) (by omega)
      show size a + totalSize size items = _
      rw [head, tail]

/-- The key and the payload of a field are taken whatever comes after them. -/
theorem Field.Served.takes {f : Field ρ} (served : f.Served depth step) {form : WireType}
    {payload : Bytes}
    (taken : ∀ rest, f.merge depth form r (payload ++ rest) = .ok (r', rest)) :
    Takes step r (writeKey f.tag form ++ payload) r' := by
  intro rest
  have key : 1 ≤ (writeKey f.tag form).length := one_le_length_writeVarint _
  rw [List.append_assoc]
  refine .step (served _ _ _ _ _ (taken rest)) ?_ (.refl r' rest)
  rw [List.length_append, List.length_append]
  omega

theorem served_mergeField (tags : (fields.map Field.tag).Nodup) {f : Field ρ} (member : f ∈ fields)
    (lawful : f.Lawful) (blame : Field ρ → DecodeError → DecodeError) (depth : Nat) :
    f.Served depth (mergeField fields blame depth) := by
  intro form r bytes r' rest taken
  have found : fields.find? (fun g => g.tag = f.tag) = some f := by
    cases found : fields.find? fun g => g.tag = f.tag with
    | none => exact absurd (List.find?_eq_none.mp found f member) (by simp)
    | some g =>
        have same : g.tag = f.tag := by simpa using List.find?_some found
        rw [List.inj_on_of_nodup_map tags (List.mem_of_find?_eq_some found) member same]
  unfold mergeField
  rw [readKey_writeKey lawful.positive lawful.fits, ok_bind]
  dsimp only
  rw [found]
  exact mapError_eq_ok.mpr taken

theorem length_writeFields_cons (f : Field ρ) (fields : List (Field ρ)) (r : ρ) :
    (writeFields (f :: fields) r).length = (f.write r).length + (writeFields fields r).length := by
  rw [writeFields, List.flatMap_cons, List.length_append]
  rfl

section Fills

variable {before : List (Field ρ)}

theorem Fills.takes (fills : Fills need before fields acc r r') (enough : need ≤ depth)
    (served : ∀ f ∈ fields, f.Served depth step)
    (fits : (writeFields fields r).length < UInt64.size) :
    Takes step acc (writeFields fields r) r' := by
  induction fills with
  | nil => exact .nil step _
  | cons lawful _ restores others ih =>
      rw [length_writeFields_cons] at fits
      have first := restores step depth enough (served _ (.head _)) (by omega)
      exact first.append (ih (fun f member => served f (.tail _ member)) (by omega))

theorem Fills.lawful (fills : Fills need before fields acc r r') : ∀ f ∈ fields, f.Lawful := by
  induction fills with
  | nil => nofun
  | cons lawful _ _ _ ih =>
      intro f member
      rcases List.mem_cons.mp member with rfl | member
      · exact lawful
      · exact ih f member

theorem Fills.apart (fills : Fills need before fields acc r r') :
    (fields.Pairwise fun f g => f.Spares g ∧ g.Spares f) ∧
      ∀ f ∈ fields, ∀ g ∈ before, f.Spares g := by
  induction fills with
  | nil => exact ⟨.nil, nofun⟩
  | cons _ spares _ _ ih =>
      obtain ⟨apart, earlier⟩ := ih
      refine ⟨.cons (fun g member => ⟨spares g ?_, earlier g member _ (.head _)⟩) apart, ?_⟩
      · exact List.mem_append_right _ member
      · intro f member g listed
        rcases List.mem_cons.mp member with rfl | member
        · exact spares g (List.mem_append_left _ listed)
        · exact earlier f member g (.tail _ listed)

end Fills

/-- One field of a record is changed, and what is written of the others stays. -/
theorem length_writeFields_of_merge {f : Field ρ} (member : f ∈ fields)
    (apart : fields.Pairwise fun f g => f.Spares g ∧ g.Spares f) {form : WireType}
    (taken : f.merge depth form r bytes = .ok (r', rest)) :
    (writeFields fields r').length + (f.write r).length =
      (writeFields fields r).length + (f.write r').length := by
  induction fields with
  | nil => cases member
  | cons g fields ih =>
      obtain ⟨others, apart⟩ := List.pairwise_cons.mp apart
      rw [length_writeFields_cons, length_writeFields_cons]
      rcases List.mem_cons.mp member with rfl | member
      · have spared : writeFields fields r' = writeFields fields r :=
          List.flatMap_congr fun g listed => (others g listed).1 _ _ _ _ _ _ taken
        rw [spared]
        omega
      · have := ih member apart
        rw [(others f member).2 _ _ _ _ _ _ taken]
        omega

namespace Layout

variable {blank : ρ}

theorem lawful (layout : Layout need blank fields) : ∀ f ∈ fields, f.Lawful :=
  (layout.fills blank).lawful

/-- The bytes of a record take a reader from the blank record to it. -/
theorem takes (layout : Layout need blank fields) (enough : need ≤ depth)
    (fits : (writeFields fields r).length < UInt64.size) :
    Takes (mergeField fields blame depth) blank (writeFields fields r) r :=
  (layout.fills r).takes enough
    (fun f member => served_mergeField layout.tags member (layout.lawful f member) blame depth) fits

theorem size_eq (layout : Layout need blank fields)
    (fits : (writeFields fields r).length < UInt64.size) :
    sizeOfFields fields r = (writeFields fields r).length :=
  totalSize_eq _ _ (fun f member => (layout.lawful f member).size_eq r) fits

/-- A field that is taken, known or not, adds at most twice its bytes to what is written. -/
theorem growth (layout : Layout need blank fields)
    (taken : mergeField fields blame depth r bytes = .ok (r', rest)) :
    (writeFields fields r').length + 2 * rest.length ≤
      (writeFields fields r).length + 2 * bytes.length := by
  obtain ⟨⟨tag, form, after⟩, key, field⟩ := bind_eq_ok.mp taken
  have front := length_of_readKey key
  dsimp only at field
  cases found : fields.find? fun f => f.tag = tag with
  | none =>
      rw [found] at field
      obtain ⟨between, skipped, same⟩ := bind_eq_ok.mp field
      cases same
      have := (length_of_skip _).1 _ _ _ _ _ skipped
      omega
  | some f =>
      rw [found] at field
      have merged := mapError_eq_ok.mp field
      have member := List.mem_of_find?_eq_some found
      have numbered : f.tag = tag := by simpa using List.find?_some found
      have grown := (layout.lawful f member).growth _ _ _ _ _ _ merged
      have whole := length_writeFields_of_merge member (layout.fills blank).apart.1 merged
      rw [numbered] at grown
      omega

end Layout

end RunControl.Wire
