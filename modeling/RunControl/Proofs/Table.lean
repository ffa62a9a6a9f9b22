import Mathlib.Data.List.Induction
import Mathlib.Data.List.Nodup
import RunControl.Table

/-!
Tables through their look-ups.

What a table without some of its values has (`reject`), and what is found in the table of a
row of pairs: of two rows the later has the say (`get?_ofList_append`), and a row in which no
key stands twice is found as it is (`ofList_eq_of_perm`).
-/

namespace RunControl.Table

variable {β : Type}

/-- The entries of a table are what its look-ups find. -/
theorem get?_eq_some_iff {t : Table β} {key : String} {value : β} :
    t.get? key = some value ↔ (key, value) ∈ t.entries := by
  obtain ⟨entries, sorted⟩ := t
  show lookup key entries = some value ↔ _
  induction entries with
  | nil => simp [lookup]
  | cons head rest ih =>
      obtain ⟨k, v⟩ := head
      obtain ⟨below, sorted⟩ := List.pairwise_cons.mp sorted
      by_cases same : k = key
      · subst same
        have unique : (k, value) ∉ rest := fun member =>
          String.lt_irrefl k (below (k, value) member)
        simp [lookup, unique, eq_comm]
      · simp [lookup, same, Ne.symm same, ih sorted]

/-- What is seen of a value does not change when the value makes place for one of which the
same is seen. -/
theorem map_get?_insert {γ : Type} {f : β → γ} {t : Table β} {key k : String} {old new : β}
    (found : t.get? key = some old) (same : f new = f old) :
    ((t.insert key new).get? k).map f = (t.get? k).map f := by
  rw [get?_insert]
  split
  · rename_i here
    rw [← here, found, Option.map_some, Option.map_some, same]
  · rfl

/-- Putting a value where it is changes nothing. -/
theorem insert_eq_self {t : Table β} {key : String} {value : β}
    (found : t.get? key = some value) : t.insert key value = t := by
  ext k v
  rw [get?_insert]
  split
  · rename_i same
    rw [← same, found]
  · rfl

/-- No key stands twice. -/
theorem keys_nodup (t : Table β) : t.keys.Nodup := by
  rw [keys, List.Nodup, List.pairwise_map]
  refine t.sorted.imp ?_
  intro a b less same
  exact String.lt_irrefl b.1 (same ▸ less)

theorem mem_keys_iff {t : Table β} {key : String} :
    key ∈ t.keys ↔ ∃ value, t.get? key = some value := by
  simp only [keys, List.mem_map, get?_eq_some_iff, Prod.exists, exists_and_right, exists_eq_right]

/-- A key stands in a table once exactly if it has a value. -/
theorem count_keys (t : Table β) (key : String) :
    t.keys.count key = if t.get? key = none then 0 else 1 := by
  split
  · rename_i absent
    refine List.count_eq_zero_of_not_mem fun there => ?_
    obtain ⟨value, found⟩ := mem_keys_iff.mp there
    exact nomatch found.symm.trans absent
  · rename_i there
    exact List.count_eq_one_of_mem t.keys_nodup
      (mem_keys_iff.mpr (Option.ne_none_iff_exists'.mp there))

theorem keys_map {γ : Type} (t : Table β) (f : β → γ) : (t.map f).keys = t.keys := by
  simp [keys, map]

theorem isEmpty_iff {t : Table β} : t.isEmpty = true ↔ ∀ key, t.get? key = none := by
  rw [isEmpty, List.isEmpty_iff]
  constructor
  · intro none key
    rw [get?, none]
    rfl
  · intro absent
    refine List.eq_nil_iff_forall_not_mem.mpr fun e member => ?_
    exact nomatch (absent e.1).symm.trans (get?_eq_some_iff.mpr member)

/-! ### Without some values -/

/-- The table without the values of a kind. -/
def reject (t : Table β) (kind : β → Bool) : Table β :=
  ⟨t.entries.filter fun e => !kind e.2, t.sorted.filter _⟩

theorem get?_reject_eq_some_iff {t : Table β} {kind : β → Bool} {key : String} {value : β} :
    (t.reject kind).get? key = some value ↔ t.get? key = some value ∧ kind value = false := by
  rw [get?_eq_some_iff, get?_eq_some_iff, reject, List.mem_filter, Bool.not_eq_true']

/-- Tables with the same entries but for values of a kind agree without that kind. -/
theorem reject_eq_iff {s t : Table β} {kind : β → Bool} :
    s.reject kind = t.reject kind ↔
      ∀ key value, kind value = false → (s.get? key = some value ↔ t.get? key = some value) := by
  constructor
  · intro same key value other
    have := @get?_reject_eq_some_iff _ s kind key value
    rw [same, get?_reject_eq_some_iff] at this
    simpa [other] using this.symm
  · intro agree
    ext key value
    rw [get?_reject_eq_some_iff, get?_reject_eq_some_iff, and_congr_left_iff]
    exact agree key value

theorem reject_eq_self_iff {t : Table β} {kind : β → Bool} :
    t.reject kind = t ↔ ∀ key value, t.get? key = some value → kind value = false := by
  constructor
  · intro same key value found
    rw [← same] at found
    exact (get?_reject_eq_some_iff.mp found).2
  · intro others
    ext key value
    rw [get?_reject_eq_some_iff, and_iff_left_iff_imp]
    exact others key value

/-! ### Rows of pairs -/

/-- In the table of two rows of pairs the later row has the say. -/
theorem get?_ofList_append (first second : List (String × β)) (key : String) :
    (ofList (first ++ second)).get? key =
      ((ofList second).get? key).or ((ofList first).get? key) := by
  have override (t : Table β) : (second.foldl (fun t e => t.insert e.1 e.2) t).get? key =
      ((ofList second).get? key).or (t.get? key) := by
    unfold ofList
    induction second generalizing t with
    | nil => rfl
    | cons e second ih =>
        rw [List.foldl_cons, List.foldl_cons, ih, ih (empty.insert e.1 e.2)]
        simp only [get?_insert, get?_empty]
        cases (second.foldl (fun t e => t.insert e.1 e.2) empty).get? key <;> split <;> rfl
  rw [ofList, List.foldl_append]
  exact override (ofList first)

theorem get?_ofList_singleton (k key : String) (value : β) :
    (ofList [(k, value)]).get? key = if k = key then some value else none := by
  simp [ofList]

variable {pairs : List (String × β)} {key : String} {value : β}

/-- What is found in the table of a row of pairs stands in the row. -/
theorem mem_of_get?_ofList (found : (ofList pairs).get? key = some value) :
    (key, value) ∈ pairs := by
  induction pairs using List.reverseRecOn with
  | nil => cases found
  | append_singleton pairs last ih =>
      rw [get?_ofList_append, Option.or_eq_some_iff] at found
      rcases found with here | ⟨-, before⟩
      · rw [show last = (last.1, last.2) from rfl, get?_ofList_singleton] at here
        split at here
        · rename_i same
          cases here
          simp [← same]
        · cases here
      · exact List.mem_append_left _ (ih before)

/-- What becomes of each value of a row becomes of what is found. -/
theorem get?_ofList_map {γ : Type} (change : String → β → γ) (pairs : List (String × β))
    (key : String) :
    (ofList (pairs.map fun e => (e.1, change e.1 e.2))).get? key =
      ((ofList pairs).get? key).map (change key) := by
  induction pairs using List.reverseRecOn with
  | nil => rfl
  | append_singleton pairs last ih =>
      rw [List.map_append, get?_ofList_append, get?_ofList_append, ih, List.map_singleton,
        get?_ofList_singleton, get?_ofList_singleton]
      split
      · rename_i same
        rw [same]
        rfl
      · rfl

/-- The table of a row of keys with one value. -/
theorem get?_ofList_const (names : List String) (value : β) (key : String) :
    (ofList (names.map fun name => (name, value))).get? key =
      if key ∈ names then some value else none := by
  induction names using List.reverseRecOn with
  | nil => rfl
  | append_singleton names last ih =>
      rw [List.map_append, get?_ofList_append, List.map_singleton, get?_ofList_singleton, ih]
      by_cases here : last = key
      · simp [here]
      · simp [here, Ne.symm here]

/-- Where no key stands twice, every pair of a row is found in its table. -/
theorem get?_ofList_of_mem (distinct : (pairs.map Prod.fst).Nodup)
    (member : (key, value) ∈ pairs) : (ofList pairs).get? key = some value := by
  induction pairs using List.reverseRecOn with
  | nil => cases member
  | append_singleton pairs last ih =>
      rw [List.map_append, List.nodup_append] at distinct
      obtain ⟨distinct, -, apart⟩ := distinct
      rw [get?_ofList_append]
      rcases List.mem_append.mp member with before | here
      · have other : last.1 ≠ key := fun same =>
          apart key (List.mem_map_of_mem before) last.1 (by simp) same.symm
        rw [ih distinct before]
        simp [ofList, other]
      · obtain rfl := List.mem_singleton.mp here
        simp [ofList]

theorem get?_ofList_eq_some_iff (distinct : (pairs.map Prod.fst).Nodup) :
    (ofList pairs).get? key = some value ↔ (key, value) ∈ pairs :=
  ⟨mem_of_get?_ofList, get?_ofList_of_mem distinct⟩

/-- Where no key stands twice, the order of the pairs does not matter. -/
theorem ofList_eq_ofList_of_perm {others : List (String × β)}
    (distinct : (pairs.map Prod.fst).Nodup) (order : others.Perm pairs) :
    ofList others = ofList pairs := by
  ext key value
  rw [get?_ofList_eq_some_iff distinct,
    get?_ofList_eq_some_iff ((order.map _).nodup_iff.mpr distinct), order.mem_iff]

/-- A table is made of its entries in whatever order they are given. -/
theorem ofList_eq_of_perm {t : Table β} (entries : pairs.Perm t.entries) : ofList pairs = t := by
  have distinct : (t.entries.map Prod.fst).Nodup := t.keys_nodup
  ext key value
  rw [get?_eq_some_iff (t := t), ← entries.mem_iff]
  exact ⟨mem_of_get?_ofList, get?_ofList_of_mem ((entries.map _).nodup_iff.mpr distinct)⟩

end RunControl.Table
