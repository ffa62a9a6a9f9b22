/-!
Tables: finite maps from texts, kept in the order of their keys.

The entries are sorted strictly by key, so a table is determined by its look-ups
(`Table.ext`), and every listing of it is in key order, which for texts is also the
order of their UTF-8 bytes. Each operation is pinned by one equation on look-ups.
-/

namespace RunControl

/-- A finite map from texts to `β`. -/
structure Table (β : Type) where
  entries : List (String × β)
  sorted : entries.Pairwise fun a b => a.1 < b.1

namespace Table

variable {β γ : Type}

instance [Repr β] : Repr (Table β) :=
  ⟨fun t n => reprPrec t.entries n⟩

instance [DecidableEq β] : DecidableEq (Table β) := fun s t =>
  if h : s.entries = t.entries then
    isTrue (by cases s; cases t; cases h; rfl)
  else isFalse fun e => h (by rw [e])

/-- The table without entries. -/
def empty : Table β :=
  ⟨[], .nil⟩

instance : EmptyCollection (Table β) := ⟨empty⟩

instance : Inhabited (Table β) := ⟨empty⟩

/-! ### Entry lists -/

/-- The value stored under `key` in a list of entries. -/
def lookup (key : String) : List (String × β) → Option β
  | [] => none
  | (k, v) :: r => if k = key then some v else lookup key r

/-- Puts an entry at its place, over one with the same key. -/
def place (key : String) (value : β) : List (String × β) → List (String × β)
  | [] => [(key, value)]
  | (k, v) :: r =>
    if key < k then (key, value) :: (k, v) :: r
    else if key = k then (key, value) :: r
    else (k, v) :: place key value r

theorem mem_place {key : String} {value : β} {entry : String × β} {l : List (String × β)}
    (h : entry ∈ place key value l) : entry = (key, value) ∨ entry ∈ l := by
  induction l with
  | nil => simpa [place] using h
  | cons head r ih =>
    obtain ⟨k, v⟩ := head
    rw [place] at h
    split at h
    · simpa using h
    · split at h
      · rcases List.mem_cons.mp h with h | h
        · exact .inl h
        · exact .inr (List.mem_cons_of_mem _ h)
      · rcases List.mem_cons.mp h with h | h
        · exact .inr (h ▸ List.mem_cons_self)
        · exact (ih h).imp_right (List.mem_cons_of_mem _)

theorem key_lt_of_not_lt {a b : String} (notLess : ¬ a < b) (ne : ¬ a = b) : b < a :=
  Decidable.byContradiction fun h =>
    ne (String.le_antisymm (String.not_lt.mp h) (String.not_lt.mp notLess))

theorem place_sorted (key : String) (value : β) {l : List (String × β)}
    (h : l.Pairwise fun a b => a.1 < b.1) :
    (place key value l).Pairwise fun a b => a.1 < b.1 := by
  induction l with
  | nil => simp [place]
  | cons head r ih =>
    obtain ⟨k, v⟩ := head
    obtain ⟨below, rest⟩ := List.pairwise_cons.mp h
    rw [place]
    split
    · rename_i less
      refine List.pairwise_cons.mpr ⟨fun e he => ?_, h⟩
      rcases List.mem_cons.mp he with rfl | he
      · exact less
      · exact String.lt_trans less (below e he)
    · rename_i notLess
      split
      · rename_i eq
        exact List.pairwise_cons.mpr ⟨fun e he => eq ▸ below e he, rest⟩
      · rename_i ne
        refine List.pairwise_cons.mpr ⟨fun e he => ?_, ih rest⟩
        rcases mem_place he with rfl | he
        · exact key_lt_of_not_lt notLess ne
        · exact below e he

theorem lookup_place (key k : String) (value : β) (l : List (String × β)) :
    lookup k (place key value l) = if key = k then some value else lookup k l := by
  induction l with
  | nil => rfl
  | cons head r ih =>
    obtain ⟨k', v'⟩ := head
    rw [place]
    split
    · rfl
    · split
      · rename_i eq
        subst eq
        by_cases h : key = k <;> simp [lookup, h]
      · by_cases h : k' = k
        · subst h
          simp_all [lookup]
        · simp [lookup, h, ih]

/-- Keys below every key of a list are not in it. -/
theorem lookup_eq_none_of_lt {key : String} {l : List (String × β)}
    (h : ∀ e ∈ l, key < e.1) : lookup key l = none := by
  induction l with
  | nil => rfl
  | cons head r ih =>
    obtain ⟨k, v⟩ := head
    have ne : k ≠ key := fun eq => String.lt_irrefl key (by simpa [eq] using h _ List.mem_cons_self)
    rw [lookup, if_neg ne]
    exact ih fun e he => h e (List.mem_cons_of_mem _ he)

theorem entries_eq_of_lookup {l m : List (String × β)}
    (hl : l.Pairwise fun a b => a.1 < b.1) (hm : m.Pairwise fun a b => a.1 < b.1)
    (h : ∀ k, lookup k l = lookup k m) : l = m := by
  induction l generalizing m with
  | nil =>
    cases m with
    | nil => rfl
    | cons head r => simpa [lookup] using h head.1
  | cons head r ih =>
    obtain ⟨k, v⟩ := head
    obtain ⟨belowL, restL⟩ := List.pairwise_cons.mp hl
    cases m with
    | nil => simpa [lookup] using h k
    | cons head' r' =>
      obtain ⟨k', v'⟩ := head'
      obtain ⟨belowM, restM⟩ := List.pairwise_cons.mp hm
      have keys : k = k' := by
        by_cases less : k < k'
        · have atK := h k
          rw [lookup, if_pos rfl, lookup_eq_none_of_lt] at atK
          · cases atK
          · intro e he
            rcases List.mem_cons.mp he with rfl | he
            · exact less
            · exact String.lt_trans less (belowM e he)
        · by_cases eq : k = k'
          · exact eq
          · have greater := key_lt_of_not_lt less eq
            have atK := h k'
            rw [lookup_eq_none_of_lt, lookup, if_pos rfl] at atK
            · cases atK
            · intro e he
              rcases List.mem_cons.mp he with rfl | he
              · exact greater
              · exact String.lt_trans greater (belowL e he)
      subst keys
      have values : v = v' := by simpa [lookup] using h k
      subst values
      refine congrArg _ (ih restL restM fun key => ?_)
      by_cases eq : k = key
      · subst eq
        rw [lookup_eq_none_of_lt belowL, lookup_eq_none_of_lt belowM]
      · simpa [lookup, eq] using h key

/-! ### Operations -/

/-- The value under a key. -/
def get? (t : Table β) (key : String) : Option β :=
  lookup key t.entries

/-- Whether a key has a value. -/
def contains (t : Table β) (key : String) : Bool :=
  (t.get? key).isSome

/-- Tables with the same look-ups are equal. -/
@[ext]
theorem ext {s t : Table β} (h : ∀ key, s.get? key = t.get? key) : s = t := by
  have := entries_eq_of_lookup s.sorted t.sorted h
  cases s
  cases t
  cases this
  rfl

/-- The table with `value` under `key`, whatever was there before. -/
def insert (t : Table β) (key : String) (value : β) : Table β :=
  ⟨place key value t.entries, place_sorted key value t.sorted⟩

@[simp]
theorem get?_insert (t : Table β) (key k : String) (value : β) :
    (t.insert key value).get? k = if key = k then some value else t.get? k :=
  lookup_place key k value t.entries

/-- The table without a key. -/
def erase (t : Table β) (key : String) : Table β :=
  ⟨t.entries.filter fun e => e.1 ≠ key, t.sorted.filter _⟩

@[simp]
theorem get?_erase (t : Table β) (key k : String) :
    (t.erase key).get? k = if key = k then none else t.get? k := by
  unfold get? erase
  simp only
  induction t.entries with
  | nil => simp [lookup]
  | cons head r ih =>
    obtain ⟨k', v'⟩ := head
    by_cases gone : k' = key
    · subst gone
      simp only [ne_eq, not_true_eq_false, decide_false, Bool.false_eq_true, not_false_eq_true,
        List.filter_cons_of_neg, lookup]
      rw [ih]
      by_cases h : k' = k <;> simp [h]
    · simp only [ne_eq, gone, not_false_eq_true, decide_true, List.filter_cons_of_pos, lookup]
      by_cases h : k' = k
      · subst h
        simp [Ne.symm gone]
      · simpa [h] using ih

/-- The table with each value replaced by its image. -/
def map (f : β → γ) (t : Table β) : Table γ :=
  ⟨t.entries.map fun e => (e.1, f e.2), by
    simpa [List.pairwise_map] using t.sorted⟩

@[simp]
theorem get?_map (f : β → γ) (t : Table β) (key : String) :
    (t.map f).get? key = (t.get? key).map f := by
  unfold get? map
  simp only
  induction t.entries with
  | nil => rfl
  | cons head r ih =>
    obtain ⟨k, v⟩ := head
    by_cases h : k = key <;> simp [lookup, h, ih]

/-- The table of a list of pairs, in which a later pair wins over an earlier one
with the same key. -/
def ofList (pairs : List (String × β)) : Table β :=
  pairs.foldl (fun t e => t.insert e.1 e.2) empty

/-- The keys in order. -/
def keys (t : Table β) : List String :=
  t.entries.map (·.1)

/-- The values in key order. -/
def values (t : Table β) : List β :=
  t.entries.map (·.2)

/-- Whether there is no entry. -/
def isEmpty (t : Table β) : Bool :=
  t.entries.isEmpty

@[simp]
theorem get?_empty (key : String) : (empty : Table β).get? key = none := rfl

theorem contains_eq_true_iff {t : Table β} {key : String} :
    t.contains key = true ↔ ∃ value, t.get? key = some value := by
  rw [contains, Option.isSome_iff_exists]

end Table

end RunControl
