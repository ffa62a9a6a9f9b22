import RunControl.Proofs.Json.Reordering

/-!
Records read from objects.

An object fills a record (`Record.Filled`) when every member of it passes, no field is given twice,
and the value can be built from the fields that were given. The order of the members has no part
in this, so records are read stably (`record_stable`, `openRecord_stable`).
-/

namespace RunControl.Json.Record

variable {α β : Type} {fields : List Field} {room : Nat}
  {other : String → Doc → Except ReadError Unit} {members members' : List (Token String × Doc)}

/-! ### Fields that are given -/

/-- Whether a name is that of a field. -/
def isField (fields : List Field) (name : String) : Bool :=
  fields.any fun f => f.name = name

/-- A member as a given field, if it is one. -/
def asField (fields : List Field) (m : Token String × Doc) : Option (String × Doc) :=
  match m.1.value with
  | .ok k => if isField fields k then some (k, m.2) else none
  | .error _ => none

theorem value_of_asField {m : Token String × Doc} {e : String × Doc}
    (field : asField fields m = some e) : e.2 = m.2 := by
  unfold asField at field
  split at field
  · split at field
    · cases field
      rfl
    · cases field
  · cases field

/-- The fields that members give. -/
def fieldsIn (fields : List Field) (members : List (Token String × Doc)) : List (String × Doc) :=
  members.filterMap (asField fields)

theorem givenIn_cons (e : String × Doc) (given : List (String × Doc)) (name : String) :
    givenIn (e :: given) name = if e.1 = name then some e.2 else givenIn given name := by
  unfold givenIn
  rw [List.find?_cons]
  by_cases same : e.1 = name
  · simp [same]
  · simp [same]

theorem givenIn_eq_none_iff {given : List (String × Doc)} {name : String} :
    givenIn given name = none ↔ name ∉ given.map Prod.fst := by
  induction given with
  | nil => simp [givenIn]
  | cons e given ih =>
      rw [givenIn_cons, List.map_cons, List.mem_cons, not_or, ← ih, eq_comm (a := name)]
      split <;> simp_all

theorem mem_of_givenIn {given : List (String × Doc)} {name : String} {d : Doc}
    (found : givenIn given name = some d) : (name, d) ∈ given := by
  induction given with
  | nil => cases found
  | cons e given ih =>
      rw [givenIn_cons] at found
      split at found
      · rename_i same
        cases found
        exact same ▸ .head _
      · exact .tail _ (ih found)

theorem givenIn_of_mem {given : List (String × Doc)} (distinct : (given.map Prod.fst).Nodup)
    {e : String × Doc} (member : e ∈ given) : givenIn given e.1 = some e.2 := by
  induction given with
  | nil => cases member
  | cons first given ih =>
      obtain ⟨apart, distinct⟩ := List.nodup_cons.mp distinct
      rw [givenIn_cons]
      rcases List.mem_cons.mp member with rfl | member
      · exact if_pos rfl
      · have other : first.1 ≠ e.1 := fun same =>
          apart (same ▸ List.mem_map_of_mem (f := Prod.fst) member)
        rw [if_neg other, ih distinct member]

/-- Where no field is given twice, the order in which they are given does not matter. -/
theorem givenIn_of_perm {given given' : List (String × Doc)}
    (distinct : (given.map Prod.fst).Nodup) (order : given'.Perm given) :
    givenIn given' = givenIn given := by
  funext name
  have distinct' := (order.map Prod.fst).nodup_iff.mpr distinct
  cases found : givenIn given name with
  | none =>
      rw [givenIn_eq_none_iff] at found ⊢
      rwa [(order.map _).mem_iff]
  | some d => exact givenIn_of_mem distinct' (order.mem_iff.mpr (mem_of_givenIn found))

/-! ### Members that pass -/

/-- A member passes: its name can be read, and its value is right for the field of this name or,
if there is none, for what becomes of other members. -/
inductive Passes (fields : List Field) (room : Nat) (other : String → Doc → Except ReadError Unit) :
    Token String × Doc → Prop where
  | field {key : Token String} {d : Doc} {k : String} {f : Field} (named : key.value = .ok k)
      (found : (fields.find? fun f => f.name = k) = some f) (right : f.check room d = .ok ()) :
      Passes fields room other (key, d)
  | other {key : Token String} {d : Doc} {k : String} (named : key.value = .ok k)
      (unknown : (fields.find? fun f => f.name = k) = none) (right : other k d = .ok ()) :
      Passes fields room other (key, d)

theorem isField_of_find? {k : String} {f : Field}
    (found : (fields.find? fun f => f.name = k) = some f) : isField fields k = true :=
  List.any_eq_true.mpr
    ⟨f, List.mem_of_find?_eq_some found, List.find?_some (p := fun f : Field => f.name = k) found⟩

theorem find?_eq_none_iff {k : String} :
    (fields.find? fun f => f.name = k) = none ↔ isField fields k = false := by
  simp [isField]

/-- One member is checked and then the others. -/
theorem checkMembers_cons_eq_ok {key : Token String} {d : Doc} {given out : List (String × Doc)} :
    checkMembers fields room other given ((key, d) :: members) = .ok out ↔
      Passes fields room other (key, d) ∧
        (∀ e ∈ asField fields (key, d), givenIn given e.1 = none) ∧
        checkMembers fields room other ((asField fields (key, d)).toList ++ given) members =
          .ok out := by
  rw [checkMembers, bind_eq_ok]
  constructor
  · rintro ⟨k, named, checked⟩
    have named := ofFault_eq_ok.mp named
    split at checked
    · rename_i f found
      have isField := isField_of_find? found
      split at checked
      · cases checked
      · rename_i absent
        obtain ⟨⟨⟩, right, others⟩ := bind_eq_ok.mp checked
        refine ⟨.field named found right, ?_, ?_⟩
        · simpa [asField, named, isField] using absent
        · simpa [asField, named, isField] using others
    · rename_i unknown
      have isField := find?_eq_none_iff.mp unknown
      obtain ⟨⟨⟩, right, others⟩ := bind_eq_ok.mp checked
      refine ⟨.other named unknown right, ?_, ?_⟩
      · simp [asField, named, isField]
      · simpa [asField, named, isField] using others
  · rintro ⟨passes, absent, others⟩
    cases passes with
    | @field _ _ k f named found right =>
        have isField := isField_of_find? found
        refine ⟨k, ofFault_eq_ok.mpr named, ?_⟩
        simp only [asField, named, isField] at absent others
        simp only [found]
        rw [if_neg (by simpa using absent)]
        exact bind_eq_ok.mpr ⟨(), right, others⟩
    | @other _ _ k named unknown right =>
        have isField := find?_eq_none_iff.mp unknown
        refine ⟨k, ofFault_eq_ok.mpr named, ?_⟩
        simp only [asField, named, isField] at others
        simp only [unknown]
        exact bind_eq_ok.mpr ⟨(), right, others⟩

/-- Members are checked when each of them passes and no field is given twice. -/
theorem checkMembers_eq_ok {given out : List (String × Doc)}
    (distinct : (given.map Prod.fst).Nodup) :
    checkMembers fields room other given members = .ok out ↔
      (∀ m ∈ members, Passes fields room other m) ∧
        (((fieldsIn fields members).reverse ++ given).map Prod.fst).Nodup ∧
        out = (fieldsIn fields members).reverse ++ given := by
  induction members generalizing given with
  | nil => simp [checkMembers, fieldsIn, distinct, eq_comm]
  | cons m members ih =>
      obtain ⟨key, d⟩ := m
      rw [checkMembers_cons_eq_ok, List.forall_mem_cons, and_assoc]
      refine and_congr_right fun passes => ?_
      rw [fieldsIn, List.filterMap_cons, ← fieldsIn]
      cases field : asField fields (key, d) with
      | none => simp [ih distinct]
      | some e =>
          by_cases absent : givenIn given e.1 = none
          · have distinct' : ((e :: given).map Prod.fst).Nodup :=
              List.nodup_cons.mpr ⟨givenIn_eq_none_iff.mp absent, distinct⟩
            simp [ih distinct', absent]
          · refine iff_of_false (fun both => absent (both.1 e rfl)) fun both => absent ?_
            have apart := both.2.1
            rw [List.reverse_cons, List.append_assoc, List.map_append, List.nodup_append] at apart
            exact givenIn_eq_none_iff.mpr (List.nodup_cons.mp apart.2.1).1

/-- The members fill the record with this value. -/
structure Filled (r : Record α) (room : Nat) (other : String → Doc → Except ReadError Unit)
    (members : List (Token String × Doc)) (a : α) : Prop where
  passes : ∀ m ∈ members, Passes r.fields room other m
  distinct : ((fieldsIn r.fields members).map Prod.fst).Nodup
  built : r.build room (givenIn (fieldsIn r.fields members)) = .ok a

theorem filled_iff {r : Record α} {stop : Option Fault} {a : α} :
    (do let given ← checkMembers r.fields room other [] members
        ofFault (close stop ())
        r.build room (givenIn given)) = .ok a ↔ stop = none ∧ r.Filled room other members a := by
  have checked {given : List (String × Doc)} :
      checkMembers r.fields room other [] members = .ok given ↔
        (∀ m ∈ members, Passes r.fields room other m) ∧
          ((fieldsIn r.fields members).map Prod.fst).Nodup ∧
          given = (fieldsIn r.fields members).reverse := by
    have none : (([] : List (String × Doc)).map Prod.fst).Nodup := List.nodup_nil
    rw [checkMembers_eq_ok none, List.append_nil, List.map_reverse, List.nodup_reverse]
  have reversed := fun distinct => givenIn_of_perm distinct
    (fieldsIn r.fields members).reverse_perm
  simp only [bind_eq_ok, checked, ofFault_eq_ok, close_eq_ok]
  constructor
  · rintro ⟨_, ⟨passes, distinct, rfl⟩, ⟨⟩, ⟨closed, -⟩, built⟩
    exact ⟨closed, passes, distinct, reversed distinct ▸ built⟩
  · rintro ⟨closed, passes, distinct, built⟩
    exact ⟨_, ⟨passes, distinct, rfl⟩, (), ⟨closed, trivial⟩, (reversed distinct).symm ▸ built⟩

/-! ### Members that are no fields -/

/-- A member as one that is kept, if it is no field. -/
def asOther (fields : List Field) (room : Nat) (m : Token String × Doc) : Option (String × Json) :=
  match m.1.value, m.2.toJson room with
  | .ok k, .ok j => if isField fields k then none else some (k, j)
  | _, _ => none

theorem others_eq (fields : List Field) (room : Nat) (members : List (Token String × Doc)) :
    others fields room members = .ofList (members.filterMap (asOther fields room)) := rfl

theorem asOther_eq_some_iff {m : Token String × Doc} {e : String × Json} :
    asOther fields room m = some e ↔
      isField fields e.1 = false ∧ Entry (fun d j => d.toJson room = .ok j) m e := by
  unfold asOther Entry
  constructor
  · intro kept
    split at kept
    · rename_i named value
      split at kept
      · cases kept
      · rename_i unknown
        cases kept
        exact ⟨by simpa using unknown, named, value⟩
    · cases kept
  · rintro ⟨unknown, named, value⟩
    simp [named, value, unknown]

/-- The names of members that are kept are among all names, in order. -/
theorem keys_asOther_sublist (fields : List Field) (room : Nat)
    (members : List (Token String × Doc)) :
    ((members.filterMap (asOther fields room)).map Prod.fst).Sublist (names members) := by
  induction members with
  | nil => exact .slnil
  | cons m members ih =>
      rw [List.filterMap_cons, names, List.filterMap_cons, ← names]
      cases kept : asOther fields room m with
      | none =>
          cases m.1.value with
          | error _ => exact ih
          | ok k => exact ih.cons k
      | some e =>
          rw [(asOther_eq_some_iff.mp kept).2.1]
          exact ih.cons_cons e.1

/-- Passes a member that has a value. -/
def keep (room : Nat) (_ : String) (d : Doc) : Except ReadError Unit := do
  let _ ← ofFault (d.toJson room)

theorem keep_eq_ok {name : String} {d : Doc} :
    keep room name d = .ok () ↔ ∃ j, d.toJson room = .ok j := by
  simp only [keep, bind_eq_ok, ofFault_eq_ok]
  exact exists_congr fun j => and_iff_left rfl

/-! ### Records that were read -/

theorem record_array_eq_ok {name : String} {r : Record α} {items : List Doc} {stop : Option Fault}
    {a : α} : Reader.record name r room (.array items stop) = .ok a ↔ ∃ left given,
      room = left + 1 ∧
      checkItems name r.fields.length left stop [] 0 r.fields items = .ok given ∧
      r.build left (givenIn given) = .ok a := by
  rw [Reader.record, enter_eq_ok]
  simp only [bind_eq_ok, exists_and_left]

theorem record_object_eq_ok {name : String} {r : Record α} {stop : Option Fault} {a : α} :
    Reader.record name r room (.object members stop) = .ok a ↔
      ∃ left, room = left + 1 ∧ stop = none ∧ r.Filled left skip members a := by
  rw [Reader.record, enter_eq_ok]
  exact exists_congr fun left => and_congr_right fun _ => filled_iff

theorem openRecord_object_eq_ok {name : String} {r : Record (Table Json → α)}
    {stop : Option Fault} {a : α} :
    Reader.openRecord name r room (.object members stop) = .ok a ↔
      ∃ left make, room = left + 1 ∧ stop = none ∧ r.Filled left (keep left) members make ∧
        a = make (others r.fields left members) := by
  rw [Reader.openRecord, enter_eq_ok]
  constructor
  · rintro ⟨left, rfl, read⟩
    obtain ⟨given, checked, read⟩ := bind_eq_ok.mp read
    obtain ⟨⟨⟩, closes, read⟩ := bind_eq_ok.mp read
    obtain ⟨make, built, same⟩ := bind_eq_ok.mp read
    obtain ⟨closed, filled⟩ := filled_iff.mp
      (bind_eq_ok.mpr ⟨given, checked, bind_eq_ok.mpr ⟨(), closes, built⟩⟩)
    exact ⟨left, make, rfl, closed, filled, (Except.ok.inj same).symm⟩
  · rintro ⟨left, make, rfl, closed, filled, rfl⟩
    obtain ⟨given, checked, read⟩ := bind_eq_ok.mp (filled_iff.mpr ⟨closed, filled⟩)
    obtain ⟨⟨⟩, closes, built⟩ := bind_eq_ok.mp read
    exact ⟨left, rfl, bind_eq_ok.mpr ⟨given, checked, bind_eq_ok.mpr
      ⟨(), closes, bind_eq_ok.mpr ⟨make, built, rfl⟩⟩⟩⟩

/-! ### Values that are built -/

section Built

variable {given : String → Option Doc}

theorem build_ap_eq_ok {f : Record (α → β)} {x : Record α} {b : β} :
    (f <*> x).build room given = .ok b ↔
      ∃ g a, f.build room given = .ok g ∧ x.build room given = .ok a ∧ b = g a := by
  show (f.build room given >>= fun g => x.build room given >>= fun a => Except.ok (g a)) = _ ↔ _
  simp only [bind_eq_ok, Except.ok.injEq, eq_comm (a := b), exists_and_left]

theorem build_map_eq_ok {f : α → β} {x : Record α} {b : β} :
    (f <$> x).build room given = .ok b ↔ ∃ a, x.build room given = .ok a ∧ b = f a := by
  show (x.build room given >>= fun a => Except.ok (f a)) = _ ↔ _
  simp only [bind_eq_ok, Except.ok.injEq, eq_comm (a := b)]

/-- The value of a field that need not be given was read, or is the usual one. -/
theorem optional_cases {name : String} {value : Reader α} {default a : α}
    (built : (optional name value default).build room given = .ok a) :
    a = default ∨ ∃ d, given name = some d ∧ value room d = .ok a := by
  unfold optional at built
  dsimp only at built
  split at built
  · rename_i d found
    exact .inr ⟨d, found, built⟩
  · exact .inl (Except.ok.inj built).symm

end Built

/-! ### Stable records -/

/-- `Regiven e e'`: the same field is given with a reordered value. -/
def Regiven (e e' : String × Doc) : Prop :=
  e.1 = e'.1 ∧ Reordered e.2 e'.2

/-- The record checks and builds the same from reordered values. -/
structure Stable (r : Record α) : Prop where
  check : ∀ f ∈ r.fields, ∀ {room : Nat} {d d' : Doc}, Reordered d d' →
    f.check room d = .ok () → f.check room d' = .ok ()
  build : ∀ {room : Nat} {given given' : String → Option Doc} {a : α},
    (∀ name, Option.Rel Reordered (given name) (given' name)) →
    r.build room given = .ok a → r.build room given' = .ok a

theorem pure_stable (a : α) : (pure a).Stable where
  check := nofun
  build _ := id

theorem Stable.ap {f : Record (α → β)} {x : Record α} (first : f.Stable) (second : x.Stable) :
    (f <*> x).Stable where
  check field member := by
    rcases List.mem_append.mp member with member | member
    · exact first.check field member
    · exact second.check field member
  build same built := by
    obtain ⟨g, a, builtFirst, builtSecond, rfl⟩ := build_ap_eq_ok.mp built
    exact build_ap_eq_ok.mpr
      ⟨g, a, first.build same builtFirst, second.build same builtSecond, rfl⟩

theorem Stable.map (f : α → β) {x : Record α} (stable : x.Stable) : (f <$> x).Stable :=
  (pure_stable f).ap stable

theorem required_stable (name : String) {value : Reader α} (stable : value.Stable) :
    (required name value).Stable where
  check field member room d d' reordered checked := by
    obtain rfl := List.mem_singleton.mp member
    obtain ⟨a, read, -⟩ := bind_eq_ok.mp checked
    exact bind_eq_ok.mpr ⟨a, stable.reads reordered read, rfl⟩
  build {room given given' a} same built := by
    unfold required at built ⊢
    have same := same name
    dsimp only at built ⊢
    generalize given name = old at same built
    generalize given' name = new at same ⊢
    cases same with
    | some reordered => exact stable.reads reordered built
    | none => cases built

theorem optional_stable (name : String) {value : Reader α} (default : α) (stable : value.Stable) :
    (optional name value default).Stable where
  check field member room d d' reordered checked := by
    obtain rfl := List.mem_singleton.mp member
    obtain ⟨a, read, -⟩ := bind_eq_ok.mp checked
    exact bind_eq_ok.mpr ⟨a, stable.reads reordered read, rfl⟩
  build {room given given' a} same built := by
    unfold optional at built ⊢
    have same := same name
    dsimp only at built ⊢
    generalize given name = old at same built
    generalize given' name = new at same ⊢
    cases same with
    | some reordered => exact stable.reads reordered built
    | none => exact built

section Regiven

variable {r : Record α} {given given' : List (String × Doc)}

theorem keys_of_regiven (same : List.Forall₂ Regiven given given') :
    given.map Prod.fst = given'.map Prod.fst := by
  induction same with
  | nil => rfl
  | cons first others ih => rw [List.map_cons, List.map_cons, first.1, ih]

theorem givenIn_of_regiven (same : List.Forall₂ Regiven given given') (name : String) :
    Option.Rel Reordered (givenIn given name) (givenIn given' name) := by
  induction same with
  | nil => exact .none
  | cons first others ih =>
      rw [givenIn_cons, givenIn_cons, first.1]
      split
      · exact .some first.2
      · exact ih

theorem fieldsIn_of_beside (related : List.Forall₂ (Beside Reordered) members members') :
    List.Forall₂ Regiven (fieldsIn fields members) (fieldsIn fields members') := by
  refine List.rel_filterMap ?_ related
  intro m m' beside
  unfold asField
  rw [← beside.1]
  split
  · split
    · exact .some ⟨rfl, beside.2⟩
    · exact .none
  · exact .none

theorem Passes.beside (stable : r.Stable)
    (otherStable : ∀ k d d', Reordered d d' → other k d = .ok () → other k d' = .ok ())
    {m m' : Token String × Doc} (beside : Beside Reordered m m')
    (passes : Passes r.fields room other m) : Passes r.fields room other m' := by
  obtain ⟨key, d'⟩ := m'
  obtain ⟨same, reordered⟩ := beside
  cases passes with
  | field named found right =>
      cases same
      exact .field named found
        (stable.check _ (List.mem_of_find?_eq_some found) reordered right)
  | other named unknown right =>
      cases same
      exact .other named unknown (otherStable _ _ _ reordered right)

/-- A record is filled as well where the values of members are reordered. -/
theorem Filled.beside {a : α} (stable : r.Stable)
    (otherStable : ∀ k d d', Reordered d d' → other k d = .ok () → other k d' = .ok ())
    (related : List.Forall₂ (Beside Reordered) members members')
    (filled : r.Filled room other members a) : r.Filled room other members' a where
  passes := by
    have passes := filled.passes
    clear filled
    induction related with
    | nil => exact nofun
    | cons first others ih =>
        obtain ⟨passesFirst, passesOthers⟩ := List.forall_mem_cons.mp passes
        exact List.forall_mem_cons.mpr
          ⟨passesFirst.beside stable otherStable first, ih passesOthers⟩
  distinct := keys_of_regiven (fieldsIn_of_beside related) ▸ filled.distinct
  built := stable.build (givenIn_of_regiven (fieldsIn_of_beside related)) filled.built

/-- It is filled as well where the members stand in another order. -/
theorem Filled.order {a : α} (order : members'.Perm members)
    (filled : r.Filled room other members a) : r.Filled room other members' a where
  passes m member := filled.passes m (order.mem_iff.mp member)
  distinct := ((order.filterMap _).map _).nodup_iff.mpr filled.distinct
  built := (givenIn_of_perm filled.distinct (order.filterMap _)).symm ▸ filled.built

/-- The items of an array are checked as well where they are reordered. -/
theorem checkItems_of_reordered {name : String} {total index : Nat} {stop : Option Fault}
    {items items' : List Doc} {out : List (String × Doc)}
    (stable : ∀ f ∈ fields, ∀ {room : Nat} {d d' : Doc}, Reordered d d' →
      f.check room d = .ok () → f.check room d' = .ok ())
    (related : List.Forall₂ Reordered items items') (same : List.Forall₂ Regiven given given')
    (checked : checkItems name total room stop given index fields items = .ok out) :
    ∃ out', checkItems name total room stop given' index fields items' = .ok out' ∧
      List.Forall₂ Regiven out out' := by
  induction fields generalizing items items' given given' index with
  | nil =>
      cases related with
      | nil =>
          obtain ⟨closed, rfl⟩ := close_eq_ok.mp (ofFault_eq_ok.mp checked)
          exact ⟨given', ofFault_eq_ok.mpr (close_eq_ok.mpr ⟨closed, rfl⟩), same⟩
      | cons => cases checked
  | cons f fields ih =>
      obtain ⟨stableFirst, stableOthers⟩ := List.forall_mem_cons.mp stable
      cases related with
      | nil =>
          obtain ⟨⟨⟩, closes, checked⟩ := bind_eq_ok.mp checked
          split at checked
          · cases checked
          · rename_i missing
            obtain ⟨out', checked', same'⟩ := ih stableOthers .nil same checked
            exact ⟨out', bind_eq_ok.mpr ⟨(), closes, (if_neg missing).trans checked'⟩, same'⟩
      | @cons d d' items items' first others =>
          obtain ⟨⟨⟩, right, checked⟩ := bind_eq_ok.mp checked
          have regiven : Regiven (f.name, d) (f.name, d') := ⟨rfl, first⟩
          obtain ⟨out', checked', same'⟩ := ih stableOthers others (.cons regiven same) checked
          exact ⟨out', bind_eq_ok.mpr ⟨(), stableFirst first right, checked'⟩, same'⟩

end Regiven

theorem skip_of_reordered (k : String) (d d' : Doc) (reordered : Reordered d d')
    (skipped : skip k d = .ok ()) : skip k d' = .ok () := by
  unfold skip at skipped ⊢
  split at skipped
  · cases skipped
  · rename_i whole
    rw [fault?_of_reordered reordered whole]

theorem keep_of_reordered (k : String) (d d' : Doc) (reordered : Reordered d d')
    (kept : keep room k d = .ok ()) : keep room k d' = .ok () := by
  obtain ⟨j, value⟩ := keep_eq_ok.mp kept
  exact keep_eq_ok.mpr ⟨j, toJson_of_reordered reordered value⟩

/-- What is kept of members that pass does not change where their values are reordered. -/
theorem others_of_beside (related : List.Forall₂ (Beside Reordered) members members')
    (passes : ∀ m ∈ members, Passes fields room (keep room) m) :
    others fields room members' = others fields room members := by
  suffices same : members'.filterMap (asOther fields room) =
      members.filterMap (asOther fields room) by rw [others_eq, others_eq, same]
  induction related with
  | nil => rfl
  | @cons m m' members members' beside _ ih =>
      obtain ⟨passesFirst, passesOthers⟩ := List.forall_mem_cons.mp passes
      have same : asOther fields room m' = asOther fields room m := by
        ext e
        rw [asOther_eq_some_iff, asOther_eq_some_iff, Entry, Entry, ← beside.1]
        refine and_congr_right fun unknown => and_congr_right fun named => ?_
        obtain ⟨j, value⟩ : ∃ j, m.2.toJson room = .ok j := by
          cases passesFirst with
          | field named' found =>
              cases named.symm.trans named'
              cases unknown.symm.trans (isField_of_find? found)
          | other _ _ kept => exact keep_eq_ok.mp kept
        rw [value, toJson_of_reordered beside.2 value]
      rw [List.filterMap_cons, List.filterMap_cons, same, ih passesOthers]

/-- Nor does it where members with distinct names stand in another order. -/
theorem others_of_perm (distinct : (names members).Nodup) (order : members'.Perm members) :
    others fields room members' = others fields room members := by
  rw [others_eq, others_eq]
  exact Table.ofList_eq_ofList_of_perm
    ((keys_asOther_sublist fields room members).nodup distinct) (order.filterMap _)

/-- Records are read stably. -/
theorem record_stable (name : String) {r : Record α} (stable : r.Stable) :
    (Reader.record name r).Stable :=
  Reader.Steady.stable
    { items := by
        intro room items items' stop a related read
        obtain ⟨left, given, rfl, checked, built⟩ := record_array_eq_ok.mp read
        obtain ⟨given', checked', same⟩ :=
          checkItems_of_reordered stable.check related .nil checked
        exact record_array_eq_ok.mpr
          ⟨left, given', rfl, checked', stable.build (givenIn_of_regiven same) built⟩
      values := by
        intro room members members' stop a related read
        obtain ⟨left, rfl, closed, filled⟩ := record_object_eq_ok.mp read
        exact record_object_eq_ok.mpr
          ⟨left, rfl, closed, filled.beside stable skip_of_reordered related⟩
      order := by
        intro room members members' stop a _ order read
        obtain ⟨left, rfl, closed, filled⟩ := record_object_eq_ok.mp read
        exact record_object_eq_ok.mpr ⟨left, rfl, closed, filled.order order⟩ }

/-- So are records that keep the members they do not know. -/
theorem openRecord_stable (name : String) {r : Record (Table Json → α)} (stable : r.Stable) :
    (Reader.openRecord name r).Stable :=
  Reader.Steady.stable
    { items := fun _ read => not_ok rfl read
      values := by
        intro room members members' stop a related read
        obtain ⟨left, make, rfl, closed, filled, rfl⟩ := openRecord_object_eq_ok.mp read
        refine openRecord_object_eq_ok.mpr ⟨left, make, rfl, closed,
          filled.beside stable keep_of_reordered related, ?_⟩
        rw [others_of_beside related filled.passes]
      order := by
        intro room members members' stop a distinct order read
        obtain ⟨left, make, rfl, closed, filled, rfl⟩ := openRecord_object_eq_ok.mp read
        refine openRecord_object_eq_ok.mpr ⟨left, make, rfl, closed, filled.order order, ?_⟩
        rw [others_of_perm distinct order] }

end RunControl.Json.Record
