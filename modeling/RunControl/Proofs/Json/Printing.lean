import RunControl.Json.Printer
import RunControl.Json.Reader
import RunControl.Proofs.Json.Numbers
import RunControl.Proofs.Json.Spelling

/-!
What is written of a value is a spelling of its outline.

This holds of every value without doubles (`spells_write`), so whoever reads the written text
reads the value (`ofText_compact`). Of a double the shortest digits are written; that they denote
the same double again is not shown here.
-/

namespace RunControl.Json

/-! ### Strings -/

theorem hexCode?_hexDigit : ∀ n < 0x20,
    hexCode? '0' '0' (hexDigit (n / 16)) (hexDigit (n % 16)) = some n := by
  decide

theorem char_eq_of_toNat {c : Char} {n : Nat} (same : c.toNat = n) : c = Char.ofNat n := by
  rw [← same, Char.ofNat_toNat]

/-- An escaped character stands for the character. -/
theorem spells_escape (c : Char) : SpellsGlyph (.char c) (escape c) := by
  unfold escape
  split
  · rename_i quote
    subst quote
    exact .short rfl
  · split
    · rename_i backslash
      subst backslash
      exact .short rfl
    · split
      · rename_i newline
        exact .short (newline ▸ rfl)
      · split
        · rename_i carriage
          exact .short (carriage ▸ rfl)
        · split
          · rename_i tab
            exact .short (tab ▸ rfl)
          · split
            · rename_i bell
              exact .short (char_eq_of_toNat bell ▸ rfl)
            · split
              · rename_i feed
                exact .short (char_eq_of_toNat feed ▸ rfl)
              · split
                · rename_i control
                  have code : Glyph.ofCode c.toNat = .char c := by
                    rw [Glyph.ofCode, if_neg (by omega), Char.ofNat_toNat]
                  exact code ▸ .code (hexCode?_hexDigit c.toNat control)
                · rename_i quote backslash _ _ _ _ _ visible
                  exact .plain quote backslash (by omega)

theorem spells_escapes (cs : List Char) : SpellsGlyphs (cs.map .char) (cs.flatMap escape) := by
  induction cs with
  | nil => exact .nil
  | cons c cs ih => exact .cons (spells_escape c) ih

theorem joinGlyphs_chars (cs : List Char) : joinGlyphs none (cs.map .char) = .ok cs := by
  induction cs with
  | nil => rfl
  | cons c cs ih =>
      rw [List.map_cons, joinGlyphs, ih]
      rfl

theorem spells_quote (s : String) : SpellsString (.good s) (quote s) := by
  refine ⟨s.toList.map .char, s.toList.flatMap escape, spells_escapes _, ?_, rfl⟩
  rw [content, joinGlyphs_chars, Except.map, String.ofList_toList]
  rfl

/-! ### Numbers -/

theorem spellsNumeral_ofWhole {digits : List Char} (whole : Whole digits) (minus : Bool) :
    SpellsNumeral (.ofWhole minus digits) ((if minus then ['-'] else []) ++ digits) :=
  ⟨[], [], whole, .none, .none, by rw [List.append_nil, List.append_nil]; rfl⟩

theorem token_of_value? {n : Numeral} {v : Number} (value : n.value? = some v) :
    n.token = .good v := by
  rw [Numeral.token, value]

/-- An integer is written as one of its numerals. -/
theorem spells_number {v : Number} (integer : v.IsInteger) :
    Spells (.number (.good v)) v.write := by
  cases v with
  | natural n =>
      rw [← token_of_value? (value?_natural n)]
      exact .number (spellsNumeral_ofWhole (whole_toDigits _) false)
  | negative n =>
      rw [← token_of_value? (value?_negative integer)]
      exact .number (spellsNumeral_ofWhole (whole_toDigits _) true)
  | double bits => cases integer

/-! ### Values -/

theorem itemsToDoc_eq_map (items : List Json) : itemsToDoc items = items.map toDoc := by
  induction items with
  | nil => rfl
  | cons j items ih => rw [itemsToDoc, ih, List.map_cons]

/-- A member as it stands in an outline. -/
def memberToDoc (m : String × Json) : Token String × Doc :=
  (.good m.1, m.2.toDoc)

theorem membersToDoc_eq_map (members : List (String × Json)) :
    membersToDoc members = members.map memberToDoc := by
  induction members with
  | nil => rfl
  | cons m members ih => rw [membersToDoc, ih, List.map_cons, memberToDoc]

/-- All numbers of a value are integers. -/
def Integers (j : Json) : Prop :=
  ∀ v, j.toDoc.Has v → v.IsInteger

theorem Integers.item {items : List Json} (integers : (Json.array items).Integers) :
    ∀ j ∈ items, j.Integers := by
  intro j member v has
  refine integers v (.item ?_ has)
  rw [itemsToDoc_eq_map]
  exact List.mem_map_of_mem member

theorem Integers.value {members : List (String × Json)}
    (integers : (Json.object members).Integers) : ∀ m ∈ members, m.2.Integers := by
  intro m member v has
  have here : memberToDoc m ∈ membersToDoc members := by
    rw [membersToDoc_eq_map]
    exact List.mem_map_of_mem member
  exact integers v (.value here has)

mutual

/-- What is written of a value without doubles is a spelling of its outline. -/
theorem spells_write : (j : Json) → j.Integers → Spells j.toDoc j.write
  | .null, _ => .word .null
  | .bool true, _ => .word .true
  | .bool false, _ => .word .false
  | .number _, integers => spells_number (integers _ (.number rfl))
  | .string s, _ => .string (spells_quote s)
  | .array [], _ => .noItems blank_nil
  | .array (j :: items), integers => .array (spells_writeItems (j :: items) nofun integers.item)
  | .object [], _ => .noMembers blank_nil
  | .object (m :: members), integers =>
      .object (spells_writeMembers (m :: members) nofun integers.value)

theorem spells_writeItems : (items : List Json) → items ≠ [] → (∀ j ∈ items, j.Integers) →
    SpellsItems (itemsToDoc items) (writeItems items)
  | [], nonempty, _ => absurd rfl nonempty
  | [j], _, integers => by
      have last := SpellsItems.last blank_nil (spells_write j (integers j (.head _))) blank_nil
      rwa [List.append_nil] at last
  | j :: j' :: items, _, integers =>
      .more blank_nil (spells_write j (integers j (.head _))) blank_nil
        (spells_writeItems (j' :: items) nofun fun i member => integers i (.tail _ member))

theorem spells_writeMembers : (members : List (String × Json)) → members ≠ [] →
    (∀ m ∈ members, m.2.Integers) → SpellsMembers (membersToDoc members) (writeMembers members)
  | [], nonempty, _ => absurd rfl nonempty
  | [(key, j)], _, integers => by
      have last := SpellsMembers.last blank_nil (spells_quote key) blank_nil blank_nil
        (spells_write j (integers (key, j) (.head _))) blank_nil
      rwa [List.append_nil] at last
  | (key, j) :: m :: members, _, integers =>
      .more blank_nil (spells_quote key) blank_nil blank_nil
        (spells_write j (integers (key, j) (.head _))) blank_nil
        (spells_writeMembers (m :: members) nofun fun i member => integers i (.tail _ member))

end

theorem spells_compact {j : Json} (integers : j.Integers) : SpellsText j.toDoc j.compact :=
  ⟨[], j.write, [], blank_nil, spells_write j integers, blank_nil, by simp [compact]⟩

/-- Whoever reads a value reads it from its text. -/
theorem ofText_compact {α : Type} {r : Reader α} {j : Json} {a : α} (integers : j.Integers)
    (read : r depthLimit j.toDoc = .ok a) : r.ofText j.compact = .ok a := by
  simp only [Reader.ofText, outline_of_spells (spells_compact integers), read, if_true]

end RunControl.Json
