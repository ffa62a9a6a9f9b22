import RunControl.Json.Doc
import RunControl.Proofs.Json.Numeral

/-!
The numbers that stand in an outline.

`Doc.Has v d` says that the number `v` stands somewhere in the outline `d`. What stands in the
outline of a text was read from a numeral, so a negative integer in it is below zero
(`isInteger_of_integral`).
-/

namespace RunControl.Json

/-- The number `v` stands in an outline. -/
inductive Doc.Has (v : Number) : Doc → Prop where
  | number {n : Token Number} (value : n.value = .ok v) : Has v (.number n)
  | item {d : Doc} {items : List Doc} {stop : Option Fault} (member : d ∈ items) (has : Has v d) :
      Has v (.array items stop)
  | value {key : Token String} {d : Doc} {members : List (Token String × Doc)}
      {stop : Option Fault} (member : (key, d) ∈ members) (has : Has v d) :
      Has v (.object members stop)

/-- No number of the outline is floating-point. -/
def Doc.Integral (d : Doc) : Prop :=
  ∀ bits, ¬ d.Has (.double bits)

/-! ### Numbers that were read -/

variable {v : Number} {n : Numeral} {cs : List Char}

theorem proper_of_token (value : n.token.value = .ok v) : v.Proper := by
  unfold Numeral.token at value
  split at value
  · rename_i given
    cases value
    exact n.proper_value? given
  · cases value

theorem proper_of_readExponent (value : (readExponent n cs).1.value = .ok v) : v.Proper := by
  unfold readExponent at value
  split at value
  · split at value
    · dsimp only at value
      split at value
      all_goals
        split at value
        · cases value
        · exact proper_of_token value
    · exact proper_of_token value
  · exact proper_of_token value

theorem proper_of_readFraction (value : (readFraction n cs).1.value = .ok v) : v.Proper := by
  unfold readFraction at value
  split at value
  · dsimp only at value
    split at value
    · cases value
    · exact proper_of_readExponent value
  · exact proper_of_readExponent value

theorem proper_of_readNumber (value : (readNumber cs).1.value = .ok v) : v.Proper := by
  unfold readNumber at value
  dsimp only at value
  split at value
  · cases value
  · cases value
  · exact proper_of_readFraction value

/-! ### Numbers of outlines -/

/-- All numbers of an outline are proper. -/
def Doc.Proper (d : Doc) : Prop :=
  ∀ v, d.Has v → v.Proper

theorem proper_absent (f : Fault) : (Doc.absent f).Proper := by
  rintro v ⟨⟩

theorem proper_word (w : Token Word) : (Doc.word w).Proper := by
  rintro v ⟨⟩

theorem proper_string (t : Token String) : (Doc.string t).Proper := by
  rintro v ⟨⟩

theorem proper_array {items : List Doc} (each : ∀ d ∈ items, d.Proper) (stop : Option Fault) :
    (Doc.array items stop).Proper := by
  rintro v (_ | ⟨member, has⟩)
  exact each _ member v has

theorem proper_object {members : List (Token String × Doc)} (each : ∀ m ∈ members, m.2.Proper)
    (stop : Option Fault) : (Doc.object members stop).Proper := by
  rintro v (_ | _ | ⟨member, has⟩)
  exact each _ member v has

mutual

theorem proper_readValue (fuel : Nat) (cs : List Char) : (readValue fuel cs).1.Proper := by
  cases fuel with
  | zero => exact proper_absent _
  | succ fuel =>
      rw [readValue]
      split
      · exact proper_absent _
      · exact proper_string _
      · exact proper_array (proper_readItems fuel true _) _
      · exact proper_object (proper_readMembers fuel true _) _
      · split
        · exact proper_word _
        · split
          · exact proper_word _
          · split
            · exact proper_word _
            · split
              · rintro v ⟨value⟩
                exact proper_of_readNumber value
              · exact proper_absent _

theorem proper_readItems (fuel : Nat) (first : Bool) (cs : List Char) :
    ∀ d ∈ (readItems fuel first cs).1, d.Proper := by
  cases fuel with
  | zero => exact nofun
  | succ fuel =>
      rw [readItems]
      split
      · exact nofun
      · exact nofun
      · split
        · exact proper_readItem fuel _
        · split
          · split
            · simpa using proper_absent _
            · exact nofun
            · exact proper_readItem fuel _
          · exact nofun

theorem proper_readItem (fuel : Nat) (cs : List Char) :
    ∀ d ∈ (readItem fuel cs).1, d.Proper := by
  cases fuel with
  | zero => exact nofun
  | succ fuel =>
      have value := proper_readValue fuel cs
      rw [readItem]
      split
      · rename_i read
        rw [read] at value
        simpa using value
      · rename_i d rest read
        rw [read] at value
        exact List.forall_mem_cons.mpr ⟨value, proper_readItems fuel false rest⟩

theorem proper_readMembers (fuel : Nat) (first : Bool) (cs : List Char) :
    ∀ m ∈ (readMembers fuel first cs).1, m.2.Proper := by
  cases fuel with
  | zero => exact nofun
  | succ fuel =>
      rw [readMembers]
      split
      · exact nofun
      · exact nofun
      · split
        · exact proper_readMember fuel _
        · split
          · split
            · simpa using proper_absent _
            · exact nofun
            · exact proper_readMember fuel _
          · exact nofun

theorem proper_readMember (fuel : Nat) (cs : List Char) :
    ∀ m ∈ (readMember fuel cs).1, m.2.Proper := by
  cases fuel with
  | zero => exact nofun
  | succ fuel =>
      rw [readMember.eq_def]
      dsimp only
      split
      · split
        · simpa using proper_absent _
        · split
          · simpa using proper_absent _
          · rename_i r _
            have value := proper_readValue fuel r
            split
            · rename_i read
              rw [read] at value
              simpa using value
            · rename_i d rest read
              rw [read] at value
              exact List.forall_mem_cons.mpr ⟨value, proper_readMembers fuel false rest⟩
          · simpa using proper_absent _
      · simpa using proper_absent _

end

/-- What stands in the outline of a text is a count, an integer below zero, or a double. -/
theorem proper_outline (s : String) : (outline s).doc.Proper := by
  have proper := proper_readValue (3 * s.toList.length + 3) s.toList
  unfold outline
  dsimp only
  split <;> simp_all

/-- Where no number is floating-point, all numbers are integers. -/
theorem isInteger_of_integral {s : String} (integral : (outline s).doc.Integral)
    (has : (outline s).doc.Has v) : v.IsInteger := by
  obtain integer | ⟨bits, rfl⟩ := proper_outline s v has
  · exact integer
  · exact absurd has (integral bits)

end RunControl.Json
