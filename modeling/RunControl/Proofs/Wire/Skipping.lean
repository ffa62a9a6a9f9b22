import RunControl.Proofs.Wire.Record

/-!
Fields that are not known.

`Foreign` is the grammar of a field with any number and any form of payload. Numbers may be spelled
with idle groups, and the fields of a group may be any fields in their turn. Such a field is skipped
to its last byte and no further, whatever comes after it (`Foreign.skips`), so it changes no record
that does not know its number (`Foreign.takes`).
-/

namespace RunControl.Wire

open Utf8 (Bytes)

variable {ρ : Type} {n tag groups room depth : Nat} {form : WireType} {bytes rest : Bytes}

/-! ### The grammar -/

/-- `Foreign room tag bytes`: the bytes are a field with a number, its key and its payload, in which
groups nest at most `room` deep. -/
inductive Foreign : Nat → Nat → Bytes → Prop where
  | varint {room tag n : Nat} {key payload : Bytes} (isKey : IsKey tag .varint key)
      (number : Spelled 10 n payload) : Foreign room tag (key ++ payload)
  | sixtyFourBit {room tag : Nat} {key payload : Bytes} (isKey : IsKey tag .sixtyFourBit key)
      (eight : payload.length = 8) : Foreign room tag (key ++ payload)
  | thirtyTwoBit {room tag : Nat} {key payload : Bytes} (isKey : IsKey tag .thirtyTwoBit key)
      (four : payload.length = 4) : Foreign room tag (key ++ payload)
  | lengthDelimited {room tag : Nat} {key length content : Bytes}
      (isKey : IsKey tag .lengthDelimited key) (number : Spelled 10 content.length length) :
      Foreign room tag (key ++ (length ++ content))
  /-- The fields of a group may have any numbers. -/
  | group {room tag : Nat} {start stop : Bytes} {fields : List (Nat × Bytes)}
      (isKey : IsKey tag .startGroup start) (inside : ∀ f ∈ fields, Foreign room f.1 f.2)
      (ends : IsKey tag .endGroup stop) :
      Foreign (room + 1) tag (start ++ (fields.flatMap Prod.snd ++ stop))

/-! ### Skipping -/

/-- The bytes are skipped as a field, key and payload, where groups may nest more than `room` deep,
and nothing that follows them. The fuel has to last for two steps a byte. -/
def Skips (room tag : Nat) (bytes : Bytes) : Prop :=
  ∀ rest, ∃ form payload, readKey (bytes ++ rest) = .ok (tag, form, payload ++ rest) ∧
    form ≠ .endGroup ∧ payload.length < bytes.length ∧
    ∀ fuel depth, room < depth → 2 * payload.length + 2 ≤ fuel →
      skip fuel depth form tag (payload ++ rest) = .ok rest

theorem Spelled.one_le_length {groups : Nat} (spelled : Spelled groups n bytes) :
    1 ≤ bytes.length := by
  cases spelled <;> simp

theorem advance_append {content : Bytes} (exact : content.length = n) (rest : Bytes) :
    advance n (content ++ rest) = .ok rest := by
  have enough : ¬ (content ++ rest).length < n := by
    rw [List.length_append]
    omega
  rw [advance, if_neg enough, ← exact, List.drop_left]

/-- A key with a payload is skipped if its payload is. -/
theorem IsKey.skips {key payload : Bytes} (isKey : IsKey tag form key) (open' : form ≠ .endGroup)
    (skipped : ∀ rest fuel depth, room < depth → 2 * payload.length + 2 ≤ fuel →
      skip fuel depth form tag (payload ++ rest) = .ok rest) :
    Skips room tag (key ++ payload) := by
  intro rest
  have one := isKey.spelled.one_le_length
  refine ⟨form, payload, ?_, open', ?_, skipped rest⟩
  · rw [List.append_assoc]
    exact isKey.read _
  · rw [List.length_append]
    omega

/-- The fields of a group are skipped one after another to its end. -/
theorem skipGroup_of_skips {fields : List (Nat × Bytes)} {stop : Bytes} {fuel : Nat}
    (inside : ∀ f ∈ fields, Skips room f.1 f.2) (ends : IsKey tag .endGroup stop)
    (deep : room < depth) (enough : 2 * (fields.flatMap Prod.snd ++ stop).length ≤ fuel)
    (rest : Bytes) :
    skipGroup fuel depth tag (fields.flatMap Prod.snd ++ stop ++ rest) = .ok rest := by
  have last := ends.spelled.one_le_length
  induction fields generalizing fuel with
  | nil =>
      rw [List.flatMap_nil, List.nil_append] at enough ⊢
      obtain ⟨fuel, rfl⟩ : ∃ n, fuel = n + 1 := ⟨fuel - 1, by omega⟩
      rw [skipGroup, ends.read, ok_bind]
      exact (if_pos rfl).trans (if_pos rfl)
  | cons f fields ih =>
      have tail : 1 ≤ (fields.flatMap Prod.snd ++ stop).length := by
        rw [List.length_append]
        omega
      rw [List.flatMap_cons, List.append_assoc, List.length_append] at enough
      obtain ⟨fuel, rfl⟩ : ∃ n, fuel = n + 1 := ⟨fuel - 1, by omega⟩
      obtain ⟨form, payload, key, going, shorter, skipped⟩ :=
        inside f (.head _) (fields.flatMap Prod.snd ++ stop ++ rest)
      have others : skipGroup fuel depth tag (fields.flatMap Prod.snd ++ stop ++ rest) = .ok rest :=
        ih (fun g member => inside g (.tail _ member)) (by omega)
      rw [List.flatMap_cons, List.append_assoc, List.append_assoc, ← List.append_assoc _ stop rest,
        skipGroup, key, ok_bind]
      dsimp only
      rw [if_neg going, skipped fuel depth deep (by omega), ok_bind]
      exact others

/-- Every field is skipped to its last byte and no further. The induction is on the nesting of
groups. -/
theorem Foreign.skips (foreign : Foreign room tag bytes) : Skips room tag bytes := by
  have step {fuel depth room n : Nat} (deep : room < depth) (enough : n + 2 ≤ fuel) :
      ∃ fuel' depth', fuel = fuel' + 1 ∧ depth = depth' + 1 :=
    ⟨fuel - 1, depth - 1, by omega, by omega⟩
  induction foreign with
  | varint isKey number =>
      refine isKey.skips nofun fun rest fuel depth deep enough => ?_
      obtain ⟨fuel, depth, rfl, rfl⟩ := step deep enough
      rw [skip, number.number, ok_bind]
      rfl
  | sixtyFourBit isKey eight =>
      refine isKey.skips nofun fun rest fuel depth deep enough => ?_
      obtain ⟨fuel, depth, rfl, rfl⟩ := step deep enough
      exact advance_append eight rest
  | thirtyTwoBit isKey four =>
      refine isKey.skips nofun fun rest fuel depth deep enough => ?_
      obtain ⟨fuel, depth, rfl, rfl⟩ := step deep enough
      exact advance_append four rest
  | lengthDelimited isKey number =>
      refine isKey.skips nofun fun rest fuel depth deep enough => ?_
      obtain ⟨fuel, depth, rfl, rfl⟩ := step deep enough
      rw [skip, List.append_assoc, number.number, ok_bind]
      exact advance_append rfl rest
  | group isKey inside ends ih =>
      refine isKey.skips nofun fun rest fuel depth deep enough => ?_
      obtain ⟨fuel, depth, rfl, rfl⟩ := step deep enough
      exact skipGroup_of_skips ih ends (by omega) (by omega) rest

/-- A record that does not know the number of a field stays as it is. -/
theorem Foreign.takes {fields : List (Field ρ)} (foreign : Foreign room tag bytes)
    (unknown : ∀ f ∈ fields, f.tag ≠ tag) (deep : room < depth)
    (blame : Field ρ → DecodeError → DecodeError) (r : ρ) :
    Takes (mergeField fields blame depth) r bytes r := by
  intro rest
  obtain ⟨form, payload, key, -, shorter, skipped⟩ := foreign.skips rest
  refine .step ?_ ?_ (.refl r rest)
  · have none : fields.find? (fun f => f.tag = tag) = none := by
      rw [List.find?_eq_none]
      intro f member same
      exact unknown f member (of_decide_eq_true same)
    unfold mergeField
    rw [key, ok_bind]
    dsimp only
    rw [none]
    dsimp only
    rw [skipField, skipped _ _ deep (by rw [List.length_append]; omega), ok_bind]
    rfl
  · rw [List.length_append]
    omega

end RunControl.Wire
