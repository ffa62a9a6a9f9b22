import Mathlib.Data.List.Perm.Basic
import RunControl.Json.Reader
import RunControl.Proofs.Reading
import RunControl.Proofs.Table

/-!
Outlines whose objects list their members in another order.

`Reordered d d'` allows any object in `d`, however deep, to list its members in another order, as
long as no two of them have the same name. Readers that are stable (`Reader.Stable`) read the same
from both; the readers of texts, ports, lists and tables are, and so is the value of an outline
(`toJson_of_reordered`).
-/

namespace RunControl.Json

/-- The names that members have. -/
def names (members : List (Token String × Doc)) : List String :=
  members.filterMap fun m => m.1.value.toOption

/-- The members of an object stand in another order, here or further inside. -/
inductive Reordered : Doc → Doc → Prop where
  | refl (d : Doc) : Reordered d d
  | trans {d d' d'' : Doc} (first : Reordered d d') (second : Reordered d' d'') : Reordered d d''
  | item {before after : List Doc} {d d' : Doc} {stop : Option Fault} (within : Reordered d d') :
      Reordered (.array (before ++ d :: after) stop) (.array (before ++ d' :: after) stop)
  | value {before after : List (Token String × Doc)} {key : Token String} {d d' : Doc}
      {stop : Option Fault} (within : Reordered d d') :
      Reordered (.object (before ++ (key, d) :: after) stop)
        (.object (before ++ (key, d') :: after) stop)
  | order {members members' : List (Token String × Doc)} {stop : Option Fault}
      (distinct : (names members).Nodup) (order : members'.Perm members) :
      Reordered (.object members stop) (.object members' stop)

/-- `Beside R m m'`: the members have the same key, and values in relation. -/
def Beside (R : Doc → Doc → Prop) (m m' : Token String × Doc) : Prop :=
  m.1 = m'.1 ∧ R m.2 m'.2

variable {α β : Type} {R : Doc → Doc → Prop} {d d' : Doc} {stop : Option Fault}

/-- Rows that differ in one place are in relation place by place. -/
theorem forall₂_around {R : α → α → Prop} (refl : ∀ a, R a a) {a a' : α} (related : R a a')
    (before after : List α) : List.Forall₂ R (before ++ a :: after) (before ++ a' :: after) := by
  induction before with
  | nil => exact .cons related (List.forall₂_same.mpr fun b _ => refl b)
  | cons b before ih => exact .cons (refl b) ih

theorem beside_around (refl : ∀ d, R d d) (related : R d d') (key : Token String)
    (before after : List (Token String × Doc)) :
    List.Forall₂ (Beside R) (before ++ (key, d) :: after) (before ++ (key, d') :: after) :=
  forall₂_around (fun m => ⟨rfl, refl m.2⟩) ⟨rfl, related⟩ before after

/-- What is read place by place is read of related rows as well. -/
theorem forall₂_of_related {R : α → α → Prop} {S : α → β → Prop}
    (follows : ∀ {a a' b}, R a a' → S a b → S a' b) {as as' : List α} {bs : List β}
    (related : List.Forall₂ R as as') (read : List.Forall₂ S as bs) : List.Forall₂ S as' bs := by
  induction related generalizing bs with
  | nil => exact read
  | cons first others ih =>
      cases read with
      | cons readFirst readOthers => exact .cons (follows first readFirst) (ih readOthers)

/-! ### Members and entries -/

/-- What is read of a member: its name, and a value in relation to its outline. -/
def Entry (S : Doc → β → Prop) (m : Token String × Doc) (e : String × β) : Prop :=
  m.1.value = .ok e.1 ∧ S m.2 e.2

section Entries

variable {S : Doc → β → Prop} {members members' : List (Token String × Doc)}
  {entries : List (String × β)}

theorem names_of_entries (read : List.Forall₂ (Entry S) members entries) :
    names members = entries.map Prod.fst := by
  induction read with
  | nil => rfl
  | cons first others ih =>
      rw [names, List.filterMap_cons, first.1]
      exact congrArg _ ih

theorem entries_of_beside (follows : ∀ {d d' b}, R d d' → S d b → S d' b)
    (related : List.Forall₂ (Beside R) members members')
    (read : List.Forall₂ (Entry S) members entries) : List.Forall₂ (Entry S) members' entries :=
  forall₂_of_related (fun beside entry => ⟨beside.1 ▸ entry.1, follows beside.2 entry.2⟩) related
    read

/-- Members with distinct names give the same table in every order. -/
theorem entries_of_perm (distinct : (names members).Nodup) (order : members'.Perm members)
    (read : List.Forall₂ (Entry S) members entries) : ∃ entries',
      List.Forall₂ (Entry S) members' entries' ∧ Table.ofList entries' = Table.ofList entries := by
  obtain ⟨entries', read', order'⟩ := List.perm_comp_forall₂ order read
  rw [names_of_entries read] at distinct
  exact ⟨entries', read', Table.ofList_eq_ofList_of_perm distinct order'⟩

end Entries

/-! ### Parts of readers -/

theorem ofFault_eq_ok {x : Except Fault α} {a : α} : ofFault x = .ok a ↔ x = .ok a :=
  mapError_eq_ok

theorem close_eq_ok {a b : α} : close stop a = .ok b ↔ stop = none ∧ a = b := by
  cases stop with
  | none => simp [close]
  | some f => simp [close]

theorem enter_eq_ok {room : Nat} {inside : Nat → Except ReadError α} {a : α} :
    enter room inside = .ok a ↔ ∃ left, room = left + 1 ∧ inside left = .ok a := by
  cases room with
  | zero => simp [enter]
  | succ left => simp [enter]

/-! ### Values of outlines -/

theorem itemsToJson_eq_ok {room : Nat} {items : List Doc} {values : List Json} :
    itemsToJson room items = .ok values ↔
      List.Forall₂ (fun d j => d.toJson room = .ok j) items values := by
  rw [← mapM_eq_ok]
  suffices same : itemsToJson room items = items.mapM (Doc.toJson room) by rw [same]
  induction items with
  | nil => rfl
  | cons d items ih => rw [itemsToJson, ih, List.mapM_cons]

theorem membersToJson_eq_ok {room : Nat} {members : List (Token String × Doc)}
    {entries : List (String × Json)} : membersToJson room members = .ok entries ↔
      List.Forall₂ (Entry fun d j => d.toJson room = .ok j) members entries := by
  induction members generalizing entries with
  | nil =>
      rw [membersToJson, List.forall₂_nil_left_iff]
      exact ⟨fun same => (Except.ok.inj same).symm, congrArg Except.ok ∘ Eq.symm⟩
  | cons m members ih =>
      obtain ⟨key, d⟩ := m
      simp only [membersToJson, bind_eq_ok, ih, List.forall₂_cons_left_iff]
      constructor
      · rintro ⟨k, named, j, value, rest, others, same⟩
        exact ⟨(k, j), rest, ⟨named, value⟩, others, (Except.ok.inj same).symm⟩
      · rintro ⟨e, rest, ⟨named, value⟩, others, rfl⟩
        exact ⟨e.1, named, e.2, value, rest, others, rfl⟩

theorem toJson_array_eq_ok {room : Nat} {items : List Doc} {j : Json} :
    (Doc.array items stop).toJson room = .ok j ↔ ∃ left values, room = left + 1 ∧ stop = none ∧
      List.Forall₂ (fun d j => d.toJson left = .ok j) items values ∧ j = .array values := by
  cases room with
  | zero => simp [Doc.toJson]
  | succ left =>
      rw [Doc.toJson, bind_eq_ok]
      simp only [itemsToJson_eq_ok, close_eq_ok, Nat.succ.injEq]
      constructor
      · rintro ⟨values, read, closed, same⟩
        exact ⟨left, values, rfl, closed, read, same.symm⟩
      · rintro ⟨_, values, rfl, closed, read, same⟩
        exact ⟨values, read, closed, same.symm⟩

theorem toJson_object_eq_ok {room : Nat} {members : List (Token String × Doc)} {j : Json} :
    (Doc.object members stop).toJson room = .ok j ↔ ∃ left entries, room = left + 1 ∧
      stop = none ∧ List.Forall₂ (Entry fun d j => d.toJson left = .ok j) members entries ∧
      j = .ofTable (.ofList entries) := by
  cases room with
  | zero => simp [Doc.toJson]
  | succ left =>
      rw [Doc.toJson, bind_eq_ok]
      simp only [membersToJson_eq_ok, close_eq_ok, Nat.succ.injEq]
      constructor
      · rintro ⟨entries, read, closed, same⟩
        exact ⟨left, entries, rfl, closed, read, same.symm⟩
      · rintro ⟨_, entries, rfl, closed, read, same⟩
        exact ⟨entries, read, closed, same.symm⟩

/-- A reordered outline has the same value. -/
theorem toJson_of_reordered (reordered : Reordered d d') {room : Nat} {j : Json}
    (value : d.toJson room = .ok j) : d'.toJson room = .ok j := by
  induction reordered generalizing room j with
  | refl => exact value
  | trans _ _ ihFirst ihSecond => exact ihSecond (ihFirst value)
  | item _ ih =>
      obtain ⟨left, values, rfl, closed, read, rfl⟩ := toJson_array_eq_ok.mp value
      refine toJson_array_eq_ok.mpr ⟨left, values, rfl, closed, ?_, rfl⟩
      exact forall₂_of_related (fun follows read => follows read)
        (forall₂_around (R := fun d d' => ∀ {j}, d.toJson left = .ok j → d'.toJson left = .ok j)
          (fun _ => id) ih _ _) read
  | value _ ih =>
      obtain ⟨left, entries, rfl, closed, read, rfl⟩ := toJson_object_eq_ok.mp value
      refine toJson_object_eq_ok.mpr ⟨left, entries, rfl, closed, ?_, rfl⟩
      exact entries_of_beside (fun follows read => follows read)
        (beside_around (R := fun d d' => ∀ {j}, d.toJson left = .ok j → d'.toJson left = .ok j)
          (fun _ => id) ih _ _ _) read
  | order distinct order =>
      obtain ⟨left, entries, rfl, closed, read, rfl⟩ := toJson_object_eq_ok.mp value
      obtain ⟨entries', read', same⟩ := entries_of_perm distinct order read
      exact toJson_object_eq_ok.mpr ⟨left, entries', rfl, closed, read', by rw [same]⟩

/-! ### Skipped outlines -/

theorem itemsFault?_eq_none {items : List Doc} :
    itemsFault? items = none ↔ ∀ d ∈ items, d.fault? = none := by
  induction items with
  | nil => simp [itemsFault?]
  | cons d items ih => simp [itemsFault?, ih]

theorem membersFault?_eq_none {members : List (Token String × Doc)} :
    membersFault? members = none ↔ ∀ m ∈ members, m.1.skip = none ∧ m.2.fault? = none := by
  induction members with
  | nil => simp [membersFault?]
  | cons m members ih => simp [membersFault?, ih, and_assoc]

/-- A reordered outline is skipped as well. -/
theorem fault?_of_reordered (reordered : Reordered d d') (skipped : d.fault? = none) :
    d'.fault? = none := by
  induction reordered with
  | refl => exact skipped
  | trans _ _ ihFirst ihSecond => exact ihSecond (ihFirst skipped)
  | item _ ih =>
      simp only [Doc.fault?, Option.or_eq_none_iff, itemsFault?_eq_none, List.forall_mem_append,
        List.forall_mem_cons] at skipped ⊢
      obtain ⟨⟨before, here, after⟩, closed⟩ := skipped
      exact ⟨⟨before, ih here, after⟩, closed⟩
  | value _ ih =>
      simp only [Doc.fault?, Option.or_eq_none_iff, membersFault?_eq_none, List.forall_mem_append,
        List.forall_mem_cons] at skipped ⊢
      obtain ⟨⟨before, ⟨named, here⟩, after⟩, closed⟩ := skipped
      exact ⟨⟨before, ⟨named, ih here⟩, after⟩, closed⟩
  | order _ order =>
      simp only [Doc.fault?, Option.or_eq_none_iff, membersFault?_eq_none] at skipped ⊢
      exact ⟨fun m member => skipped.1 m (order.mem_iff.mp member), skipped.2⟩

/-! ### Stable readers -/

/-- The reader reads the same of a reordered outline. -/
structure Reader.Stable (r : Reader α) : Prop where
  reads : ∀ {room : Nat} {d d' : Doc} {a : α}, Reordered d d' → r room d = .ok a →
    r room d' = .ok a

/-- It is enough that the reader reads the same where items or the values of members are
reordered, and where the members themselves are. -/
structure Reader.Steady (r : Reader α) : Prop where
  items : ∀ {room : Nat} {items items' : List Doc} {stop : Option Fault} {a : α},
    List.Forall₂ Reordered items items' → r room (.array items stop) = .ok a →
    r room (.array items' stop) = .ok a
  values : ∀ {room : Nat} {members members' : List (Token String × Doc)} {stop : Option Fault}
    {a : α}, List.Forall₂ (Beside Reordered) members members' →
    r room (.object members stop) = .ok a → r room (.object members' stop) = .ok a
  order : ∀ {room : Nat} {members members' : List (Token String × Doc)} {stop : Option Fault}
    {a : α}, (names members).Nodup → members'.Perm members →
    r room (.object members stop) = .ok a → r room (.object members' stop) = .ok a

theorem Reader.Steady.stable {r : Reader α} (steady : r.Steady) : r.Stable := by
  refine ⟨fun {room d d' a} reordered read => ?_⟩
  induction reordered with
  | refl => exact read
  | trans _ _ ihFirst ihSecond => exact ihSecond (ihFirst read)
  | item within => exact steady.items (forall₂_around .refl within _ _) read
  | value within => exact steady.values (beside_around .refl within _ _ _) read
  | order distinct order => exact steady.order distinct order read

theorem not_ok {x : Except ReadError α} {e : ReadError} {a : α} {p : Prop} (fails : x = .error e)
    (read : x = .ok a) : p :=
  nomatch fails.symm.trans read

theorem text_stable : text.Stable :=
  Reader.Steady.stable
    { items := fun _ read => not_ok rfl read
      values := fun _ read => not_ok rfl read
      order := fun _ _ read => not_ok rfl read }

theorem port_stable : port.Stable :=
  Reader.Steady.stable
    { items := fun _ read => not_ok rfl read
      values := fun _ read => not_ok rfl read
      order := fun _ _ read => not_ok rfl read }

theorem list_array_eq_ok {item : Reader α} {room : Nat} {items : List Doc} {values : List α} :
    list item room (.array items stop) = .ok values ↔ ∃ left, room = left + 1 ∧ stop = none ∧
      List.Forall₂ (fun d a => item left d = .ok a) items values := by
  simp only [list, enter_eq_ok, bind_eq_ok, mapM_eq_ok, ofFault_eq_ok, close_eq_ok]
  constructor
  · rintro ⟨left, room, _, read, closed, rfl⟩
    exact ⟨left, room, closed, read⟩
  · rintro ⟨left, room, closed, read⟩
    exact ⟨left, room, values, read, closed, rfl⟩

theorem list_stable {item : Reader α} (stable : item.Stable) : (list item).Stable :=
  Reader.Steady.stable
    { items := by
        intro room items items' stop values related read
        obtain ⟨left, room, closed, read⟩ := list_array_eq_ok.mp read
        refine list_array_eq_ok.mpr ⟨left, room, closed, ?_⟩
        exact forall₂_of_related (S := fun d a => item left d = .ok a) stable.reads related read
      values := fun _ read => not_ok rfl read
      order := fun _ _ read => not_ok rfl read }

theorem table_object_eq_ok {item : Reader α} {room : Nat}
    {members : List (Token String × Doc)} {t : Table α} :
    table item room (.object members stop) = .ok t ↔ ∃ left entries, room = left + 1 ∧
      stop = none ∧ List.Forall₂ (Entry fun d a => item left d = .ok a) members entries ∧
      t = .ofList entries := by
  have entry (left : Nat) (m : Token String × Doc) (e : String × α) :
      (∃ k, m.1.value = .ok k ∧ ∃ a, item left m.2 = .ok a ∧
        (pure (k, a) : Except ReadError (String × α)) = .ok e) ↔
        Entry (fun d a => item left d = .ok a) m e := by
    constructor
    · rintro ⟨k, named, a, read, same⟩
      cases same
      exact ⟨named, read⟩
    · rintro ⟨named, read⟩
      exact ⟨e.1, named, e.2, read, rfl⟩
  simp only [table, enter_eq_ok, bind_eq_ok, mapM_eq_ok, ofFault_eq_ok, close_eq_ok]
  constructor
  · rintro ⟨left, room, entries, read, closed, same⟩
    exact ⟨left, entries, room, closed, read.imp fun m e => (entry left m e).mp, same.symm⟩
  · rintro ⟨left, entries, room, closed, read, same⟩
    exact ⟨left, room, entries, read.imp fun m e => (entry left m e).mpr, closed, same.symm⟩

theorem table_stable {item : Reader α} (stable : item.Stable) : (table item).Stable :=
  Reader.Steady.stable
    { items := fun _ read => not_ok rfl read
      values := by
        intro room members members' stop t related read
        obtain ⟨left, entries, room, closed, read, same⟩ := table_object_eq_ok.mp read
        exact table_object_eq_ok.mpr
          ⟨left, entries, room, closed, entries_of_beside stable.reads related read, same⟩
      order := by
        intro room members members' stop t distinct order read
        obtain ⟨left, entries, room, closed, rows, rfl⟩ := table_object_eq_ok.mp read
        obtain ⟨entries', rows', same⟩ := entries_of_perm distinct order rows
        exact table_object_eq_ok.mpr ⟨left, entries', room, closed, rows', same.symm⟩ }

end RunControl.Json
