import RunControl.Proofs.Json.Printing
import RunControl.Proofs.Json.Record

/-!
Values and records that are read back from what is written of them.

A value that was read from an outline is read back from its own, as deep as it was found
(`kept_of_toJson`). A record is read back from its fields (`Record.Prints`), and an open record
from its fields and the members it kept (`Record.openRecord_toDoc`).
-/

namespace RunControl.Json

variable {α β : Type} {room : Nat}

/-! ### Values -/

/-- The value is read back from its outline, and all its numbers are integers. -/
structure Kept (room : Nat) (j : Json) : Prop where
  back : j.toDoc.toJson room = .ok j
  integers : j.Integers

theorem integers_array {items : List Json} (each : ∀ j ∈ items, j.Integers) :
    (Json.array items).Integers := by
  rintro v (_ | ⟨member, has⟩)
  rw [itemsToDoc_eq_map] at member
  obtain ⟨j, item, rfl⟩ := List.mem_map.mp member
  exact each j item v has

theorem integers_object {members : List (String × Json)} (each : ∀ m ∈ members, m.2.Integers) :
    (Json.object members).Integers := by
  rintro v (_ | _ | ⟨member, has⟩)
  rw [membersToDoc_eq_map] at member
  obtain ⟨m, here, same⟩ := List.mem_map.mp member
  cases same
  exact each m here v has

theorem integers_string (s : String) : (Json.string s).Integers := by
  rintro v ⟨⟩

theorem kept_array {items : List Json} (each : ∀ j ∈ items, Kept room j) :
    Kept (room + 1) (.array items) where
  back := by
    refine toJson_array_eq_ok.mpr ⟨room, items, rfl, rfl, ?_, rfl⟩
    rw [itemsToDoc_eq_map, List.forall₂_map_left_iff, List.forall₂_same]
    exact fun j member => (each j member).back
  integers := integers_array fun j member => (each j member).integers

theorem entry_memberToDoc {e : String × Json} (back : e.2.toDoc.toJson room = .ok e.2) :
    Entry (fun d j => d.toJson room = .ok j) (memberToDoc e) e :=
  ⟨rfl, back⟩

theorem kept_ofTable {t : Table Json} (each : ∀ e ∈ t.entries, Kept room e.2) :
    Kept (room + 1) (.ofTable t) where
  back := by
    refine toJson_object_eq_ok.mpr ⟨room, t.entries, rfl, rfl, ?_, ?_⟩
    · rw [membersToDoc_eq_map, List.forall₂_map_left_iff, List.forall₂_same]
      exact fun e member => entry_memberToDoc (each e member).back
    · rw [Table.ofList_eq_of_perm (.refl t.entries)]
  integers := integers_object fun e member => (each e member).integers

/-- What is related to some place of a row. -/
theorem exists_of_forall₂ {R : α → β → Prop} {as : List α} {bs : List β}
    (related : List.Forall₂ R as bs) {b : β} (member : b ∈ bs) : ∃ a ∈ as, R a b := by
  induction related with
  | nil => cases member
  | cons first others ih =>
      rcases List.mem_cons.mp member with rfl | member
      · exact ⟨_, .head _, first⟩
      · obtain ⟨a, member, related⟩ := ih member
        exact ⟨a, .tail _ member, related⟩

/-- The value of an outline is read back, as far as its numbers are integers. -/
theorem kept_of_toJson {d : Doc} {j : Json} (integers : ∀ v, d.Has v → v.IsInteger)
    (value : d.toJson room = .ok j) : Kept room j := by
  induction room using Nat.strongRecOn generalizing d j with
  | ind room ih =>
      cases d with
      | absent f =>
          rw [Doc.toJson] at value
          cases value
      | word w =>
          rw [Doc.toJson] at value
          obtain ⟨_ | word, skip⟩ := w
          · cases value
          · cases word with
            | null | true | false =>
                cases value
                exact ⟨rfl, by rintro v ⟨⟩⟩
      | number n =>
          rw [Doc.toJson] at value
          obtain ⟨_ | v, skip⟩ := n
          · cases value
          · cases value
            refine ⟨rfl, ?_⟩
            rintro v ⟨⟨⟩⟩
            exact integers v (.number rfl)
      | string s =>
          rw [Doc.toJson] at value
          obtain ⟨_ | s, skip⟩ := s
          · cases value
          · cases value
            exact ⟨rfl, integers_string s⟩
      | array items stop =>
          obtain ⟨left, values, rfl, -, read, rfl⟩ := toJson_array_eq_ok.mp value
          refine kept_array fun j member => ?_
          obtain ⟨d, member, value⟩ := exists_of_forall₂ read member
          exact ih left (Nat.lt_succ_self left) (fun v has => integers v (.item member has)) value
      | object members stop =>
          obtain ⟨left, entries, rfl, -, read, rfl⟩ := toJson_object_eq_ok.mp value
          refine kept_ofTable fun e member => ?_
          have given := Table.mem_of_get?_ofList (Table.get?_eq_some_iff.mpr member)
          obtain ⟨⟨key, d⟩, member, -, value⟩ := exists_of_forall₂ read given
          exact ih left (Nat.lt_succ_self left) (fun v has => integers v (.value member has)) value

/-! ### Lists and tables -/

theorem list_toDoc {item : Reader α} {toJson : α → Json} {values : List α}
    (each : ∀ a ∈ values, item room (toJson a).toDoc = .ok a) :
    list item (room + 1) (Json.array (values.map toJson)).toDoc = .ok values := by
  refine list_array_eq_ok.mpr ⟨room, rfl, rfl, ?_⟩
  rw [itemsToDoc_eq_map, List.map_map, List.forall₂_map_left_iff, List.forall₂_same]
  exact each

theorem textTable_toDoc (t : Table String) :
    table text (room + 1) (Json.ofTextTable t).toDoc = .ok t := by
  refine table_object_eq_ok.mpr ⟨room, t.entries, rfl, rfl, ?_, ?_⟩
  · simp only [Table.map, membersToDoc_eq_map, List.map_map, List.forall₂_map_left_iff,
      List.forall₂_same]
    exact fun e member => ⟨rfl, rfl⟩
  · exact (Table.ofList_eq_of_perm (.refl t.entries)).symm

theorem port_toDoc (p : UInt16) : port room (Json.ofNat p.toNat).toDoc = .ok p := by
  have small : p.toNat < UInt16.size := p.toNat_lt
  have same : (UInt64.ofNat p.toNat).toNat = p.toNat :=
    UInt64.toNat_ofNat_of_lt' (Nat.lt_trans small (by decide))
  show (if (UInt64.ofNat p.toNat).toNat < UInt16.size then _ else _) = _
  rw [same, if_pos small, UInt16.ofNat_toNat]

namespace Record

/-! ### Records that were written -/

/-- `Writes room f e`: the entry has the name of the field, and its value is right for it. -/
def Writes (room : Nat) (f : Field) (e : String × Json) : Prop :=
  f.name = e.1 ∧ f.check room e.2.toDoc = .ok ()

/-- `r.Prints room printed a`: the fields of the record are written as `printed`, and `a` is built
from what is read of them. -/
structure Prints (r : Record α) (room : Nat) (printed : List (String × Json)) (a : α) : Prop where
  fields : List.Forall₂ (Writes room) r.fields printed
  build : ∀ {given : String → Option Doc}, (∀ e ∈ printed, given e.1 = some e.2.toDoc) →
    r.build room given = .ok a

theorem pure_prints (a : α) : (pure a).Prints room [] a where
  fields := .nil
  build _ := rfl

variable {printed : List (String × Json)}

theorem Prints.ap {f : Record (α → β)} {x : Record α} {more : List (String × Json)} {g : α → β}
    {a : α} (first : f.Prints room printed g) (second : x.Prints room more a) :
    (f <*> x).Prints room (printed ++ more) (g a) where
  fields := List.rel_append first.fields second.fields
  build given := by
    obtain ⟨givenFirst, givenSecond⟩ := List.forall_mem_append.mp given
    exact build_ap_eq_ok.mpr ⟨g, a, first.build givenFirst, second.build givenSecond, rfl⟩

theorem Prints.map (f : α → β) {x : Record α} {a : α} (prints : x.Prints room printed a) :
    (f <$> x).Prints room printed (f a) :=
  (pure_prints f).ap prints

theorem required_prints {name : String} {value : Reader α} {j : Json} {a : α}
    (read : value room j.toDoc = .ok a) : (required name value).Prints room [(name, j)] a where
  fields := .cons ⟨rfl, bind_eq_ok.mpr ⟨a, read, rfl⟩⟩ .nil
  build given := by
    have given := given (name, j) (.head _)
    unfold required
    dsimp only at given ⊢
    rw [given]
    exact read

theorem optional_prints {name : String} {value : Reader α} {default : α} {j : Json} {a : α}
    (read : value room j.toDoc = .ok a) :
    (optional name value default).Prints room [(name, j)] a where
  fields := .cons ⟨rfl, bind_eq_ok.mpr ⟨a, read, rfl⟩⟩ .nil
  build given := by
    have given := given (name, j) (.head _)
    unfold optional
    dsimp only at given ⊢
    rw [given]
    exact read

section Written

variable {fields : List Field} {extra : List (String × Json)}

theorem names_of_writes (written : List.Forall₂ (Writes room) fields printed) :
    fields.map Field.name = printed.map Prod.fst := by
  induction written with
  | nil => rfl
  | cons first others ih => rw [List.map_cons, List.map_cons, first.1, ih]

theorem isField_iff {name : String} :
    isField fields name = true ↔ name ∈ fields.map Field.name := by
  rw [isField, List.any_eq_true, List.mem_map]
  exact exists_congr fun f => and_congr_right fun _ => decide_eq_true_iff

/-- Where the names are distinct, each entry is checked by the field it was written of. -/
theorem find?_of_writes (written : List.Forall₂ (Writes room) fields printed)
    (distinct : (printed.map Prod.fst).Nodup) {e : String × Json} (member : e ∈ printed) :
    ∃ f, (fields.find? fun f => f.name = e.1) = some f ∧ f.check room e.2.toDoc = .ok () := by
  induction written with
  | nil => cases member
  | @cons f first fields printed here others ih =>
      obtain ⟨apart, distinct⟩ := List.nodup_cons.mp distinct
      rcases List.mem_cons.mp member with rfl | member
      · exact ⟨f, List.find?_cons_of_pos (by simpa using here.1), here.2⟩
      · have other : f.name ≠ e.1 := fun same =>
          apart (here.1.symm.trans same ▸ List.mem_map_of_mem (f := Prod.fst) member)
        rw [List.find?_cons_of_neg (by simpa using other)]
        exact ih distinct member

theorem fieldsIn_written (printedFields : ∀ e ∈ printed, isField fields e.1 = true)
    (extraFields : ∀ e ∈ extra, isField fields e.1 = false) :
    fieldsIn fields ((printed ++ extra).map memberToDoc) =
      printed.map fun e => (e.1, e.2.toDoc) := by
  have asField_memberToDoc (e : String × Json) : asField fields (memberToDoc e) =
      if isField fields e.1 then some (e.1, e.2.toDoc) else none := rfl
  rw [fieldsIn, List.map_append, List.filterMap_append, List.filterMap_map, List.filterMap_map,
    (List.filterMap_eq_nil_iff (l := extra)).mpr, List.append_nil, ← List.filterMap_eq_map']
  · refine List.filterMap_congr fun e member => ?_
    rw [Function.comp_apply, asField_memberToDoc, if_pos (printedFields e member)]
  · intro e member
    rw [Function.comp_apply, asField_memberToDoc, extraFields e member, if_neg Bool.false_ne_true]

variable {r : Record α} {a : α}

theorem Prints.known (prints : r.Prints room printed a) :
    ∀ e ∈ printed, isField r.fields e.1 = true := by
  intro e member
  rw [isField_iff, names_of_writes prints.fields]
  exact List.mem_map_of_mem member

/-- What is written of a record fills it again, together with members that are no fields. -/
theorem Prints.filled (prints : r.Prints room printed a) (distinct : (printed.map Prod.fst).Nodup)
    (other : String → Doc → Except ReadError Unit)
    (apart : ∀ e ∈ extra, isField r.fields e.1 = false)
    (passes : ∀ e ∈ extra, other e.1 e.2.toDoc = .ok ()) :
    r.Filled room other (membersToDoc (printed ++ extra)) a := by
  have given := fieldsIn_written prints.known apart
  have names : (printed.map fun e => (e.1, e.2.toDoc)).map Prod.fst = printed.map Prod.fst :=
    List.map_map
  rw [membersToDoc_eq_map]
  refine ⟨?_, ?_, ?_⟩
  · intro m member
    obtain ⟨e, written, rfl⟩ := List.mem_map.mp member
    rcases List.mem_append.mp written with member | member
    · obtain ⟨f, found, right⟩ := find?_of_writes prints.fields distinct member
      exact .field rfl found right
    · exact .other rfl (find?_eq_none_iff.mpr (apart e member)) (passes e member)
  · rw [given, names]
    exact distinct
  · rw [given]
    refine prints.build fun e member => ?_
    exact givenIn_of_mem (e := (e.1, e.2.toDoc)) (names.symm ▸ distinct)
      (List.mem_map_of_mem (f := fun e : String × Json => (e.1, e.2.toDoc)) member)

/-- A record is read back from what is written of it. -/
theorem record_toDoc {name : String} (prints : r.Prints room printed a)
    (distinct : (printed.map Prod.fst).Nodup) :
    Reader.record name r (room + 1) (Json.object printed).toDoc = .ok a := by
  have filled : r.Filled room skip (membersToDoc (printed ++ [])) a :=
    prints.filled distinct skip nofun nofun
  rw [List.append_nil] at filled
  exact record_object_eq_ok.mpr ⟨room, rfl, rfl, filled⟩

end Written

/-- Members that an open record keeps: they are no fields, and are read back. -/
def Spare (fields : List Field) (room : Nat) (extra : Table Json) : Prop :=
  ∀ e ∈ extra.entries, isField fields e.1 = false ∧ Kept room e.2

theorem others_written {fields : List Field} {extra : Table Json}
    (known : ∀ e ∈ printed, isField fields e.1 = true) (spare : Spare fields room extra) :
    others fields room ((printed ++ extra.entries).map memberToDoc) = extra := by
  rw [others_eq, List.map_append, List.filterMap_append, List.filterMap_map, List.filterMap_map,
    (List.filterMap_eq_nil_iff (l := printed)).mpr, List.nil_append]
  · have same : extra.entries.filterMap (asOther fields room ∘ memberToDoc) = extra.entries := by
      refine (List.filterMap_congr fun e member => ?_).trans List.filterMap_some
      obtain ⟨unknown, kept⟩ := spare e member
      exact asOther_eq_some_iff.mpr ⟨unknown, entry_memberToDoc kept.back⟩
    rw [same]
    exact Table.ofList_eq_of_perm (.refl _)
  · intro e member
    by_contra kept
    obtain ⟨e', kept⟩ := Option.ne_none_iff_exists'.mp kept
    obtain ⟨unknown, same, -⟩ := asOther_eq_some_iff.mp kept
    rw [← Except.ok.inj same, known e member] at unknown
    cases unknown

/-- An open record is read back together with the members it keeps. -/
theorem openRecord_toDoc {name : String} {r : Record (Table Json → α)} {make : Table Json → α}
    {extra : Table Json} (prints : r.Prints room printed make)
    (distinct : (printed.map Prod.fst).Nodup) (spare : Spare r.fields room extra) :
    Reader.openRecord name r (room + 1) (Json.object (printed ++ extra.entries)).toDoc =
      .ok (make extra) := by
  have filled : r.Filled room (keep room) (membersToDoc (printed ++ extra.entries)) make :=
    prints.filled distinct (keep room) (fun e member => (spare e member).1) fun e member =>
      keep_eq_ok.mpr ⟨e.2, (spare e member).2.back⟩
  refine openRecord_object_eq_ok.mpr ⟨room, make, rfl, rfl, filled, congrArg make ?_⟩
  rw [membersToDoc_eq_map]
  exact (others_written prints.known spare).symm

/-! ### Open records that were read -/

/-- What an open record was read from: the fields it was built of, and members it keeps. -/
theorem openRecord_spare {name : String} {r : Record (Table Json → α)} {d : Doc} {a : α}
    (integers : ∀ v, d.Has v → v.IsInteger) (read : Reader.openRecord name r room d = .ok a) :
    ∃ left given make extra, room = left + 1 ∧ r.build left given = .ok make ∧ a = make extra ∧
      Spare r.fields left extra ∧
      ∀ n d', given n = some d' → ∀ v, d'.Has v → v.IsInteger := by
  cases d with
  | object members stop =>
      obtain ⟨left, make, rfl, -, filled, rfl⟩ := openRecord_object_eq_ok.mp read
      refine ⟨left, _, make, _, rfl, filled.built, rfl, ?_, ?_⟩
      · intro e member
        have found : e ∈ members.filterMap (asOther r.fields left) :=
          Table.mem_of_get?_ofList (Table.get?_eq_some_iff.mpr member)
        obtain ⟨⟨key, d⟩, here, kept⟩ := List.mem_filterMap.mp found
        obtain ⟨unknown, -, value⟩ := asOther_eq_some_iff.mp kept
        exact ⟨unknown, kept_of_toJson (fun v has => integers v (.value here has)) value⟩
      · intro n d' found v has
        obtain ⟨⟨key, d⟩, here, field⟩ := List.mem_filterMap.mp (mem_of_givenIn found)
        cases value_of_asField field
        exact integers v (.value here has)
  | absent | word | number | string | array => exact not_ok rfl read

end Record

end RunControl.Json
