import RunControl.Proofs.Table
import RunControl.Proofs.Wire.Record

/-!
Fields read back.

A field has a place in its record (`Slot`), from which it is written and which it sets. Single
values, lists and tables are restored from what is written of them, and add little to it when they
were read from other bytes. Messages are payloads in their turn (`Layout.payload_lawful`).
-/

namespace RunControl.Wire

open Utf8 (Bytes)

variable {α β ρ : Type} {p : Payload α} {q : Payload β} {need depth tag : Nat} {name : String}
  {before fields others : List (Field ρ)} {acc r r' acc' : ρ} {bytes rest : Bytes}
  {step : ρ → Bytes → Except DecodeError (ρ × Bytes)}

/-- What is written of each field. -/
def writtenOf (fields : List (Field ρ)) (r : ρ) : List Bytes :=
  fields.map fun f => f.write r

/-- What is needed of the place of a field in its record: its number can stand in a key, what was set
last is what is there, and what is written of the other fields stays. Where records are structures
and places are their projections, all of this holds by definition. -/
structure Slot (tag : Nat) (get : ρ → α) (set : ρ → α → ρ) (others : List (Field ρ)) : Prop where
  positive : 0 < tag
  fits : tag < 2 ^ 29
  get_set : ∀ r a, get (set r a) = a
  set_set : ∀ r a b, set (set r a) b = set r b
  set_get : ∀ r, set r (get r) = r
  spares : ∀ r a, writtenOf others (set r a) = writtenOf others r

theorem Slot.spared {get : ρ → α} {set : ρ → α → ρ} (slot : Slot tag get set others) {g : Field ρ}
    (member : g ∈ others) (r : ρ) (a : α) : g.write (set r a) = g.write r :=
  List.map_inj_left.mp (slot.spares r a) g member

/-! ### Payloads with their keys -/

theorem one_le_varintSize (n : Nat) : 1 ≤ varintSize n :=
  Nat.succ_le_succ (Nat.zero_le _)

theorem Payload.read_of_readAs {form : WireType} {before a : α}
    (read : p.readAs depth form before bytes = .ok (a, rest)) :
    p.read depth before bytes = .ok (a, rest) := by
  obtain ⟨-, -, read⟩ := bind_eq_ok.mp read
  exact read

theorem Payload.Lawful.readAs_write (lawful : p.Lawful need) (enough : need ≤ depth) {a : α}
    (short : (p.write a).length < UInt64.size) (rest : Bytes) :
    p.readAs depth p.form p.zero (p.write a ++ rest) = .ok (a, rest) := by
  unfold Payload.readAs expect
  rw [if_pos rfl, ok_bind]
  exact lawful.read_write depth a rest enough short

theorem Slot.length_writeField {γ : Type} {get : ρ → γ} {set : ρ → γ → ρ}
    (slot : Slot tag get set others) (p : Payload α) (a : α) :
    (p.writeField tag a).length = varintSize (8 * tag) + (p.write a).length := by
  rw [Payload.writeField, List.length_append, length_writeKey slot.positive slot.fits]

theorem Slot.fieldSize_eq {γ : Type} {get : ρ → γ} {set : ρ → γ → ρ}
    (slot : Slot tag get set others) (lawful : p.Lawful need) {a : α}
    (short : (p.writeField tag a).length < UInt64.size) :
    p.fieldSize tag a = (p.writeField tag a).length := by
  rw [slot.length_writeField] at short ⊢
  rw [Payload.fieldSize, lawful.size_eq a (by omega)]

/-! ### Single values -/

section Single

variable {get : ρ → α} {set : ρ → α → ρ}

theorem single_merge {form : WireType}
    (taken : (Field.single tag name p get set).merge depth form r bytes = .ok (r', rest)) :
    ∃ a, p.read depth (get r) bytes = .ok (a, rest) ∧ r' = set r a := by
  obtain ⟨⟨a, after⟩, read, same⟩ := bind_eq_ok.mp taken
  cases same
  exact ⟨a, Payload.read_of_readAs read, rfl⟩

theorem single_lawful (slot : Slot tag get set others) (lawful : p.Lawful need) :
    (Field.single tag name p get set).Lawful where
  positive := slot.positive
  fits := slot.fits
  size_eq r short := by
    simp only [Field.single] at short ⊢
    split
    · rfl
    · rename_i some
      rw [if_neg some] at short
      exact slot.fieldSize_eq lawful short
  growth depth form r bytes r' rest taken := by
    obtain ⟨a, read, rfl⟩ := single_merge taken
    have grown := lawful.growth _ _ _ _ _ read
    have key := one_le_varintSize (8 * tag)
    -- A value that was not written counts for one byte in `grown`: less than the second key.
    have before : (p.write (get r)).length + varintSize (8 * tag) ≤
        (if p.isZero (get r) then [] else p.writeField tag (get r)).length +
          2 * varintSize (8 * tag) := by
      split
      · rename_i zero
        rw [(lawful.isZero_iff _).mp zero, lawful.length_zero]
        omega
      · rw [slot.length_writeField]
        omega
    simp only [Field.single, slot.get_set]
    split
    · simp only [List.length_nil]
      omega
    · rw [slot.length_writeField]
      omega

theorem single_restores (slot : Slot tag get set others) (lawful : p.Lawful need)
    (clean : get acc = p.zero) :
    (Field.single tag name p get set).Restores need acc r (set acc (get r)) := by
  intro step depth enough served short
  simp only [Field.single] at short ⊢
  split
  · rename_i zero
    rw [(lawful.isZero_iff _).mp zero, ← clean, slot.set_get]
    exact .nil step acc
  · rename_i some
    rw [if_neg some, slot.length_writeField] at short
    refine served.takes fun rest => ?_
    show p.readAs depth p.form (get acc) _ >>= _ = _
    rw [clean, lawful.readAs_write enough (by omega), ok_bind]
    rfl

theorem single_spares (slot : Slot tag get set others) :
    ∀ g ∈ others, (Field.single tag name p get set).Spares g := by
  intro g member depth form r bytes r' rest taken
  obtain ⟨a, -, rfl⟩ := single_merge taken
  exact slot.spared member r a

theorem Fills.single (slot : Slot tag get set (before ++ fields)) (lawful : p.Lawful need)
    (clean : get acc = p.zero)
    (others : Fills need (.single tag name p get set :: before) fields (set acc (get r)) r acc') :
    Fills need before (.single tag name p get set :: fields) acc r acc' :=
  .cons (single_lawful slot lawful) (single_spares slot) (single_restores slot lawful clean) others

end Single

/-! ### Lists -/

section Repeated

variable {get : ρ → List α} {set : ρ → List α → ρ}

theorem repeated_merge {form : WireType}
    (taken : (Field.repeated tag name p get set).merge depth form r bytes = .ok (r', rest)) :
    ∃ a, p.read depth p.zero bytes = .ok (a, rest) ∧ r' = set r (get r ++ [a]) := by
  obtain ⟨⟨a, after⟩, read, same⟩ := bind_eq_ok.mp taken
  cases same
  exact ⟨a, Payload.read_of_readAs read, rfl⟩

theorem repeated_lawful (slot : Slot tag get set others) (lawful : p.Lawful need) :
    (Field.repeated tag name p get set).Lawful where
  positive := slot.positive
  fits := slot.fits
  size_eq r := totalSize_eq _ _ fun a _ short => slot.fieldSize_eq lawful short
  growth depth form r bytes r' rest taken := by
    obtain ⟨a, read, rfl⟩ := repeated_merge taken
    have grown := lawful.growth _ _ _ _ _ read
    have key := one_le_varintSize (8 * tag)
    have zero := lawful.length_zero
    simp only [Field.repeated, slot.get_set, List.flatMap_append, List.flatMap_cons,
      List.flatMap_nil, List.append_nil, List.length_append, slot.length_writeField]
    omega

/-- The items of a list are put behind those that are there. -/
theorem repeated_takes (slot : Slot tag get set others) (lawful : p.Lawful need)
    (enough : need ≤ depth) (served : (Field.repeated tag name p get set).Served depth step)
    {items : List α} (short : (items.flatMap (p.writeField tag)).length < UInt64.size) (acc : ρ) :
    Takes step acc (items.flatMap (p.writeField tag)) (set acc (get acc ++ items)) := by
  induction items generalizing acc with
  | nil =>
      rw [List.append_nil, slot.set_get]
      exact .nil step acc
  | cons a items ih =>
      rw [List.flatMap_cons, List.length_append, slot.length_writeField] at short
      have first : Takes step acc (p.writeField tag a) (set acc (get acc ++ [a])) := by
        refine served.takes fun rest => ?_
        show p.readAs depth p.form p.zero _ >>= _ = _
        rw [lawful.readAs_write enough (by omega), ok_bind]
        rfl
      have others := ih (by omega) (set acc (get acc ++ [a]))
      rw [slot.get_set, slot.set_set, List.append_assoc] at others
      exact first.append others

theorem repeated_restores (slot : Slot tag get set others) (lawful : p.Lawful need)
    (clean : get acc = []) :
    (Field.repeated tag name p get set).Restores need acc r (set acc (get r)) := by
  intro step depth enough served short
  have takes := repeated_takes slot lawful enough served short acc
  rwa [clean] at takes

theorem repeated_spares (slot : Slot tag get set others) :
    ∀ g ∈ others, (Field.repeated tag name p get set).Spares g := by
  intro g member depth form r bytes r' rest taken
  obtain ⟨a, -, rfl⟩ := repeated_merge taken
  exact slot.spared member r _

theorem Fills.repeated (slot : Slot tag get set (before ++ fields)) (lawful : p.Lawful need)
    (clean : get acc = [])
    (others : Fills need (.repeated tag name p get set :: before) fields (set acc (get r)) r acc') :
    Fills need before (.repeated tag name p get set :: fields) acc r acc' :=
  .cons (repeated_lawful slot lawful) (repeated_spares slot) (repeated_restores slot lawful clean)
    others

end Repeated

/-! ### Tables -/

/-- The entries of a table are records of a key and a value. -/
theorem entryFields_layout (lawful : q.Lawful need) :
    Layout need ("", q.zero) (entryFields q) where
  tags := show [1, 2].Nodup by decide
  silent := by
    have zero : q.isZero q.zero = true := (lawful.isZero_iff _).mpr rfl
    have text : Payload.text.isZero "" = true := rfl
    simp [writeFields, entryFields, Field.single, zero, text]
  fills e := by
    refine .single ?_ (Payload.text_lawful need) rfl (.single ?_ lawful rfl (.nil _ _ e))
    all_goals constructor <;> intros <;> first | rfl | decide

/-- What is written of an entry. -/
def writeEntry (tag : Nat) (q : Payload β) (e : String × β) : Bytes :=
  writeKey tag .lengthDelimited ++ writeDelimited (writeFields (entryFields q) e)

/-- An entry that is put into a table takes the place of one at most. -/
theorem length_flatMap_place (write : String × β → Bytes) (key : String) (value : β)
    (entries : List (String × β)) :
    ((Table.place key value entries).flatMap write).length ≤
      (write (key, value)).length + (entries.flatMap write).length := by
  induction entries with
  | nil => simp [Table.place]
  | cons head entries ih =>
      obtain ⟨k, v⟩ := head
      rw [Table.place]
      split
      · exact Nat.le_of_eq List.length_append
      · split
        · simp only [List.flatMap_cons, List.length_append]
          omega
        · simp only [List.flatMap_cons, List.length_append]
          omega

section Table

variable {get : ρ → Table β} {set : ρ → Table β → ρ}

theorem table_merge {form : WireType}
    (taken : (Field.table tag name q get set).merge depth form r bytes = .ok (r', rest)) :
    ∃ depth e, mergeDelimited (mergeField (entryFields q) (fun _ e => e) depth) ("", q.zero) bytes =
      .ok (e, rest) ∧ r' = set r ((get r).insert e.1 e.2) := by
  cases depth with
  | zero => cases taken
  | succ depth =>
      obtain ⟨⟨e, after⟩, read, same⟩ := bind_eq_ok.mp taken
      cases same
      exact ⟨depth, e, read, rfl⟩

theorem Slot.length_writeEntry (slot : Slot tag get set others) (q : Payload β) (e : String × β) :
    (writeEntry tag q e).length = varintSize (8 * tag) +
      (writeDelimited (writeFields (entryFields q) e)).length := by
  rw [writeEntry, List.length_append, length_writeKey slot.positive slot.fits]

theorem table_lawful (slot : Slot tag get set others) (lawful : q.Lawful need) :
    (Field.table tag name q get set).Lawful where
  positive := slot.positive
  fits := slot.fits
  size_eq r := by
    refine totalSize_eq _ (writeEntry tag q) fun e _ short => ?_
    rw [slot.length_writeEntry] at short ⊢
    have inside : (writeFields (entryFields q) e).length < UInt64.size := by
      rw [length_writeDelimited] at short
      omega
    rw [(entryFields_layout lawful).size_eq inside, delimitedSize_eq (by omega)]
  growth depth form r bytes r' rest taken := by
    obtain ⟨depth, e, read, rfl⟩ := table_merge taken
    have grown := mergeDelimited_growth (fun e => (writeFields (entryFields q) e).length)
      (fun _ _ _ _ taken => (entryFields_layout lawful).growth taken) read
    have key := one_le_varintSize (8 * tag)
    have placed := length_flatMap_place (writeEntry tag q) e.1 e.2 (get r).entries
    have entry := slot.length_writeEntry q e
    have blank : (writeFields (entryFields q) ("", q.zero)).length = 0 := by
      rw [(entryFields_layout lawful).silent, List.length_nil]
    have nothing : (writeVarint 0).length = 1 := rfl
    rw [blank, nothing] at grown
    rw [length_writeDelimited] at entry
    simp only [Field.table, slot.get_set]
    change ((Table.place e.1 e.2 (get r).entries).flatMap (writeEntry tag q)).length + _ ≤
      ((get r).entries.flatMap (writeEntry tag q)).length + _ + _
    change _ ≤ (writeEntry tag q e).length + _ at placed
    omega

/-- Entries are put into the table that is there. -/
theorem table_takes (slot : Slot tag get set others) (lawful : q.Lawful need)
    (enough : need + 1 ≤ depth) (served : (Field.table tag name q get set).Served depth step)
    {entries : List (String × β)}
    (short : (entries.flatMap (writeEntry tag q)).length < UInt64.size) (acc : ρ) :
    Takes step acc (entries.flatMap (writeEntry tag q))
      (set acc (entries.foldl (fun t e => t.insert e.1 e.2) (get acc))) := by
  induction entries generalizing acc with
  | nil =>
      rw [List.foldl_nil, slot.set_get]
      exact .nil step acc
  | cons e entries ih =>
      rw [List.flatMap_cons, List.length_append, slot.length_writeEntry,
        length_writeDelimited] at short
      have first : Takes step acc (writeEntry tag q e) (set acc ((get acc).insert e.1 e.2)) := by
        refine served.takes fun rest => ?_
        obtain ⟨depth, rfl⟩ : ∃ d, depth = d + 1 := ⟨depth - 1, by omega⟩
        show mergeDelimited (mergeField (entryFields q) (fun _ e => e) depth) _ _ >>= _ = _
        rw [mergeDelimited_writeDelimited ((entryFields_layout lawful).takes (by omega) (by omega))
          (by omega), ok_bind]
        rfl
      have others := ih (by omega) (set acc ((get acc).insert e.1 e.2))
      rw [slot.get_set, slot.set_set] at others
      exact first.append others

theorem table_restores (slot : Slot tag get set others) (lawful : q.Lawful need)
    (clean : get acc = .empty) :
    (Field.table tag name q get set).Restores (need + 1) acc r (set acc (get r)) := by
  intro step depth enough served short
  have takes := table_takes slot lawful enough served short acc
  rwa [clean, show (get r).entries.foldl _ .empty = get r from
    Table.ofList_eq_of_perm (List.Perm.refl _)] at takes

theorem table_spares (slot : Slot tag get set others) :
    ∀ g ∈ others, (Field.table tag name q get set).Spares g := by
  intro g member depth form r bytes r' rest taken
  obtain ⟨-, e, -, rfl⟩ := table_merge taken
  exact slot.spared member r _

theorem Fills.table (slot : Slot tag get set (before ++ fields)) (lawful : q.Lawful need)
    (clean : get acc = .empty)
    (others : Fills (need + 1) (.table tag name q get set :: before) fields (set acc (get r)) r
      acc') :
    Fills (need + 1) before (.table tag name q get set :: fields) acc r acc' :=
  .cons (table_lawful slot lawful) (table_spares slot) (table_restores slot lawful clean) others

end Table

/-! ### Messages as payloads -/

/-- A message is a payload of fields in messages that may nest one deeper. -/
theorem Layout.payload_lawful [DecidableEq ρ] {m : Message ρ}
    (layout : Layout need m.blank m.fields) : m.payload.Lawful (need + 1) where
  isZero_iff r := decide_eq_true_iff
  length_zero := by
    show (writeDelimited (writeFields m.fields m.blank)).length = 1
    rw [layout.silent]
    rfl
  size_eq r fits := by
    change (writeDelimited (m.encode r)).length < _ at fits
    have short : (m.encode r).length < UInt64.size := by
      rw [length_writeDelimited] at fits
      omega
    show delimitedSize (sizeOfFields m.fields r) = (writeDelimited (m.encode r)).length
    rw [layout.size_eq short]
    exact delimitedSize_eq fits
  read_write depth r rest enough fits := by
    change (writeDelimited (m.encode r)).length < _ at fits
    rw [length_writeDelimited] at fits
    obtain ⟨depth, rfl⟩ : ∃ d, depth = d + 1 := ⟨depth - 1, by omega⟩
    have short : (m.encode r).length < UInt64.size := by omega
    exact mergeDelimited_writeDelimited (layout.takes (by omega) short) short rest
  growth depth before bytes r rest read := by
    cases depth with
    | zero => cases read
    | succ depth =>
        have grown := mergeDelimited_growth (fun r => (m.encode r).length)
          (fun _ _ _ _ taken => layout.growth taken) read
        show (writeDelimited (m.encode r)).length + _ ≤ (writeDelimited (m.encode before)).length + _
        rw [length_writeDelimited, length_writeDelimited]
        exact grown

end RunControl.Wire
