import Mathlib.Data.List.Perm.Subperm
import RunControl.Components.Command
import RunControl.Proofs.Table
import RunControl.Proofs.Wire.RoundTrip

/-!
How long configuration documents and replies are.

In a document every module stands with its name in an object of its own, and in a reply its name
stands with a short state. So a reply about the modules of a document takes at most about twice as
many bytes as the document (`length_reply_le`, `moduleBytes_le`), and whoever could be sent the
document can be sent the reply.
-/

namespace RunControl

open Utf8 (Bytes)
open Wire (totalSize)

namespace Wire

variable {α : Type} {size size' : α → Nat} {items others : List α}

@[simp]
theorem totalSize_nil (size : α → Nat) : totalSize size [] = 0 := rfl

@[simp]
theorem totalSize_cons (size : α → Nat) (a : α) (items : List α) :
    totalSize size (a :: items) = size a + totalSize size items := rfl

theorem totalSize_map {β : Type} (f : β → α) (items : List β) :
    totalSize size (items.map f) = totalSize (fun b => size (f b)) items := by
  rw [totalSize, List.foldr_map]
  rfl

theorem totalSize_perm (order : items.Perm others) : totalSize size items = totalSize size others := by
  induction order with
  | nil => rfl
  | cons a _ ih => rw [totalSize_cons, totalSize_cons, ih]
  | swap a b items => exact Nat.add_left_comm _ _ _
  | trans _ _ ih ih' => exact ih.trans ih'

theorem totalSize_sublist (part : items.Sublist others) :
    totalSize size items ≤ totalSize size others := by
  induction part with
  | slnil => exact Nat.le_refl 0
  | cons a _ ih => exact Nat.le_trans ih (Nat.le_add_left _ _)
  | cons_cons a _ ih => exact Nat.add_le_add_left ih _

theorem totalSize_le (each : ∀ a ∈ items, size a ≤ size' a) :
    totalSize size items ≤ totalSize size' items := by
  induction items with
  | nil => exact Nat.le_refl 0
  | cons a items ih =>
      obtain ⟨first, rest⟩ := List.forall_mem_cons.mp each
      exact Nat.add_le_add first (ih rest)

end Wire

/-- What names take of a document that lists modules with these names: each the bytes of the name
and those around it. -/
def moduleBytes (names : List String) : Nat :=
  totalSize (fun m => (Utf8.encode m).length + 12) names

/-- Names that stand in a row take no more than the row. -/
theorem moduleBytes_le_of_subset {names others : List String} (nodup : names.Nodup)
    (subset : names ⊆ others) : moduleBytes names ≤ moduleBytes others := by
  obtain ⟨kept, order, part⟩ := List.subperm_of_subset nodup subset
  calc moduleBytes names = moduleBytes kept := Wire.totalSize_perm order.symm
    _ ≤ moduleBytes others := Wire.totalSize_sublist part

/-! ### Documents -/

namespace Json

/-- The number of bytes of a row of characters. -/
def byteCount (cs : List Char) : Nat :=
  (Utf8.encodeChars cs).length

@[simp]
theorem byteCount_nil : byteCount [] = 0 := rfl

@[simp]
theorem byteCount_cons (c : Char) (cs : List Char) :
    byteCount (c :: cs) = (Utf8.encodeChar c).length + byteCount cs := by
  simp [byteCount, Utf8.encodeChars]

@[simp]
theorem byteCount_append (cs ds : List Char) :
    byteCount (cs ++ ds) = byteCount cs + byteCount ds := by
  simp [byteCount, Utf8.encodeChars]

theorem byteCount_compact (j : Json) : (Utf8.encode j.compact).length = byteCount j.write := by
  rw [Utf8.encode, compact, String.toList_ofList, byteCount]

theorem one_le_length_encodeChar (c : Char) : 1 ≤ (Utf8.encodeChar c).length := by
  unfold Utf8.encodeChar
  dsimp only
  split
  · exact Nat.le_refl 1
  · split
    · exact Nat.le_succ 1
    · split <;> simp

theorem length_encodeChar_of_ascii {c : Char} (ascii : c.toNat < 0x80) :
    (Utf8.encodeChar c).length = 1 := by
  simp [Utf8.encodeChar, ascii]

/-- Only characters of one byte are escaped. -/
theorem escape_of_not_ascii {c : Char} (wide : ¬ c.toNat < 0x80) : escape c = [c] := by
  have other (d : Char) (ascii : d.toNat < 0x80) : c ≠ d := fun same => wide (same ▸ ascii)
  unfold escape
  rw [if_neg (other _ (by decide)), if_neg (other _ (by decide)), if_neg (other _ (by decide)),
    if_neg (other _ (by decide)), if_neg (other _ (by decide)), if_neg (by omega),
    if_neg (by omega), if_neg (by omega)]

theorem escape_ne_nil (c : Char) : escape c ≠ [] := by
  unfold escape
  repeat' split
  all_goals exact List.cons_ne_nil _ _

/-- An escaped character takes no fewer bytes. -/
theorem length_encodeChar_le_escape (c : Char) :
    (Utf8.encodeChar c).length ≤ byteCount (escape c) := by
  by_cases ascii : c.toNat < 0x80
  · rw [length_encodeChar_of_ascii ascii]
    obtain ⟨d, r, same⟩ := List.exists_cons_of_ne_nil (escape_ne_nil c)
    rw [same, byteCount_cons]
    exact Nat.le_add_right_of_le (one_le_length_encodeChar d)
  · rw [escape_of_not_ascii ascii]
    simp

theorem length_encode_le_quote (s : String) :
    (Utf8.encode s).length + 2 ≤ byteCount (quote s) := by
  have escapes (cs : List Char) : byteCount cs ≤ byteCount (cs.flatMap escape) := by
    induction cs with
    | nil => exact Nat.le_refl 0
    | cons c cs ih =>
        rw [List.flatMap_cons, byteCount_cons, byteCount_append]
        exact Nat.add_le_add (length_encodeChar_le_escape c) ih
  have quotes : (Utf8.encodeChar '"').length = 1 := by decide
  have inside := escapes s.toList
  rw [quote, byteCount_cons, byteCount_append, byteCount_cons, byteCount_nil, quotes]
  show (Utf8.encodeChars s.toList).length + 2 ≤ _
  rw [byteCount] at inside
  omega

theorem byteCount_writeItems : (items : List Json) →
    totalSize (fun j => byteCount j.write + 1) items ≤ byteCount (writeItems items) + 1
  | [] => Nat.zero_le 1
  | [j] => by simp [writeItems]
  | j :: j' :: items => by
      have rest := byteCount_writeItems (j' :: items)
      have comma : (Utf8.encodeChar ',').length = 1 := by decide
      simp only [writeItems, byteCount_append, byteCount_cons, comma]
      rw [Wire.totalSize_cons]
      omega

/-- What a member takes with its key, and a comma or the end. -/
def memberBytes (m : String × Json) : Nat :=
  byteCount (quote m.1) + byteCount m.2.write + 2

theorem byteCount_writeMembers : (members : List (String × Json)) →
    totalSize memberBytes members ≤ byteCount (writeMembers members) + 1
  | [] => Nat.zero_le 1
  | [(k, j)] => by
      have colon : (Utf8.encodeChar ':').length = 1 := by decide
      simp only [writeMembers, memberBytes, Wire.totalSize_cons, Wire.totalSize_nil,
        byteCount_append, byteCount_cons, colon]
      omega
  | (k, j) :: m :: members => by
      have rest := byteCount_writeMembers (m :: members)
      have colon : (Utf8.encodeChar ':').length = 1 := by decide
      have comma : (Utf8.encodeChar ',').length = 1 := by decide
      have first : memberBytes (k, j) = byteCount (quote k) + byteCount j.write + 2 := rfl
      simp only [writeMembers, byteCount_append, byteCount_cons, colon, comma]
      rw [Wire.totalSize_cons]
      omega

theorem byteCount_object (members : List (String × Json)) :
    totalSize memberBytes members + 1 ≤ byteCount (Json.object members).write := by
  have inside := byteCount_writeMembers members
  have opening : (Utf8.encodeChar '{').length = 1 := by decide
  have closing : (Utf8.encodeChar '}').length = 1 := by decide
  simp only [write, byteCount_cons, byteCount_append, byteCount_nil, opening, closing]
  omega

theorem byteCount_array (items : List Json) :
    totalSize (fun j => byteCount j.write + 1) items + 1 ≤ byteCount (Json.array items).write := by
  have inside := byteCount_writeItems items
  have opening : (Utf8.encodeChar '[').length = 1 := by decide
  have closing : (Utf8.encodeChar ']').length = 1 := by decide
  simp only [write, byteCount_cons, byteCount_append, byteCount_nil, opening, closing]
  omega

end Json

open Json (byteCount memberBytes)

/-- A module stands in a document with its name. -/
theorem Module.length_name_le (m : Module) :
    (Utf8.encode m.name).length + 11 ≤ byteCount m.toJson.write := by
  have key : byteCount (Json.quote "name") = 6 := by decide
  have name : (Utf8.encode m.name).length + 2 ≤ byteCount (Json.string m.name).write :=
    Json.length_encode_le_quote m.name
  have whole := Json.byteCount_object (("name", .string m.name) :: m.extra.entries)
  simp only [Wire.totalSize_cons, memberBytes, key] at whole
  rw [Module.toJson]
  omega

/-- The names of the modules stand in the document that configures a component. -/
theorem Component.moduleBytes_le (c : Component) :
    moduleBytes c.moduleNames + 16 ≤ (Utf8.encode (Command.configuration c)).length := by
  have each : moduleBytes c.moduleNames ≤
      totalSize (fun j => byteCount j.write + 1) (c.modules.map Module.toJson) := by
    rw [moduleBytes, moduleNames, Wire.totalSize_map, Wire.totalSize_map]
    refine Wire.totalSize_le fun m _ => ?_
    have name := m.length_name_le
    omega
  have listed := Json.byteCount_array (c.modules.map Module.toJson)
  have key : byteCount (Json.quote "modules") = 9 := by decide
  have whole := Json.byteCount_object (("name", .string c.name) :: ("host", .string c.host) ::
    ("port", .ofNat c.port.toNat) :: ("loglevel", c.logLevels.toJson) ::
    ("modules", .array (c.modules.map Module.toJson)) :: c.extra.entries)
  simp only [Wire.totalSize_cons, memberBytes, key] at whole
  rw [Command.configuration, Json.byteCount_compact]
  show _ ≤ byteCount (Json.object _).write
  exact Nat.le_trans (by omega) whole

/-! ### Replies -/

namespace Wire

theorem length_single_le {α ρ : Type} {tag : Nat} {name : String} {p : Payload α} {get : ρ → α}
    {set : ρ → α → ρ} (small : 0 < tag ∧ tag < 16) (r : ρ) :
    ((Field.single tag name p get set).write r).length ≤ (p.write (get r)).length + 1 := by
  have key : (writeKey tag p.form).length = 1 := by
    have code := p.form.code_lt
    exact length_writeGroups_small 9 (show 8 * tag + p.form.code < 128 by omega)
  show (if p.isZero (get r) then [] else p.writeField tag (get r)).length ≤ _
  split
  · exact Nat.zero_le _
  · rw [Payload.writeField, List.length_append]
    omega

/-- Texts of at most seven bytes. -/
structure Short (status response : String) : Prop where
  status : (Utf8.encode status).length ≤ 7
  response : (Utf8.encode response).length ≤ 7

theorem length_text_le {s : String} (short : (Utf8.encode s).length ≤ 7) :
    (Payload.text.write s).length ≤ 8 := by
  have whole := length_writeDelimited_le (Utf8.encode s)
  show (writeDelimited (Utf8.encode s)).length ≤ 8
  omega

/-- A record that begins with two single fields. -/
theorem length_writeFields_le {α β ρ : Type} {tag tag' : Nat} {name name' : String} {p : Payload α}
    {p' : Payload β} {get : ρ → α} {get' : ρ → β} {set : ρ → α → ρ} {set' : ρ → β → ρ}
    (small : 0 < tag ∧ tag < 16) (small' : 0 < tag' ∧ tag' < 16) (fields : List (Field ρ)) (r : ρ) :
    (writeFields (.single tag name p get set :: .single tag' name' p' get' set' :: fields) r).length
      ≤ (p.write (get r)).length + (p'.write (get' r)).length + 2 + (writeFields fields r).length := by
  have first : ((Field.single tag name p get set).write r).length ≤ (p.write (get r)).length + 1 :=
    length_single_le small r
  have second : ((Field.single tag' name' p' get' set').write r).length ≤
      (p'.write (get' r)).length + 1 := length_single_le small' r
  rw [length_writeFields_cons, length_writeFields_cons]
  omega

theorem length_moduleResult_le {m : ModuleResult} (short : Short m.status m.response) :
    (moduleResult.encode m).length ≤ 18 := by
  have status := length_text_le short.status
  have response := length_text_le short.response
  refine Nat.le_trans (length_writeFields_le (by decide) (by decide) [] m) ?_
  show _ + 0 ≤ 18
  omega

theorem length_writeEntry_le {e : String × ModuleResult} (short : Short e.2.status e.2.response) :
    (writeEntry 3 moduleResult.payload e).length ≤ 2 * ((Utf8.encode e.1).length + 12) := by
  have name := length_writeDelimited_le (Utf8.encode e.1)
  have value := length_writeDelimited_le (moduleResult.encode e.2)
  have small := length_moduleResult_le short
  have parts : (writeFields (entryFields moduleResult.payload) e).length ≤
      (writeDelimited (Utf8.encode e.1)).length + (writeDelimited (moduleResult.encode e.2)).length +
        2 + 0 := length_writeFields_le (by decide) (by decide) [] e
  have whole := length_writeDelimited_le (writeFields (entryFields moduleResult.payload) e)
  have key : (writeKey 3 .lengthDelimited).length = 1 := by decide
  rw [writeEntry, List.length_append, key]
  omega

theorem length_entries_le {entries : List (String × ModuleResult)}
    (short : ∀ e ∈ entries, Short e.2.status e.2.response) :
    (entries.flatMap (writeEntry 3 moduleResult.payload)).length ≤
      2 * moduleBytes (entries.map Prod.fst) := by
  induction entries with
  | nil => exact Nat.zero_le _
  | cons e entries ih =>
      obtain ⟨first, others⟩ := List.forall_mem_cons.mp short
      have entry := length_writeEntry_le first
      have rest := ih others
      rw [moduleBytes] at rest
      rw [List.flatMap_cons, List.length_append, List.map_cons, moduleBytes, totalSize_cons]
      omega

/-- A reply takes at most about twice the bytes that its modules take in a document. -/
theorem length_reply_le {r : CommandResult} (short : Short r.status r.response)
    (parts : ∀ e ∈ r.modules.entries, Short e.2.status e.2.response) :
    (commandResult.encode r).length ≤ 2 * moduleBytes r.modules.keys + 18 := by
  have status := length_text_le short.status
  have response := length_text_le short.response
  have modules : (r.modules.entries.flatMap (writeEntry 3 moduleResult.payload)).length ≤
      2 * moduleBytes r.modules.keys := length_entries_le parts
  refine Nat.le_trans (length_writeFields_le (by decide) (by decide) _ r) ?_
  rw [length_writeFields_cons]
  show _ + ((r.modules.entries.flatMap (writeEntry 3 moduleResult.payload)).length + 0) ≤ _
  omega

end Wire

end RunControl
