import Mathlib.Data.List.TakeWhile
import RunControl.Proofs.Json.Spelling

/-!
Every text that is read to its end is spelled.

The other direction of `outline_of_spells`: where the reader finds a value with nothing but blanks
behind it, the text is a spelling of the outline that was found (`spells_of_outline`). So the
grammar of `SpellsText` leaves out no text that is accepted.
-/

namespace RunControl.Json

variable {cs rest : List Char}

/-! ### Strings -/

/-- What was read with an item before it was read so itself. -/
theorem cons_read_eq {α β : Type} {a : α} {x : List α × β} {row : List α} {b : β}
    (read : (a :: x.1, x.2) = (row, b)) : ∃ row', row = a :: row' ∧ x = (row', b) := by
  obtain ⟨rfl, same⟩ := Prod.mk.inj read
  exact ⟨x.1, rfl, Prod.ext rfl same⟩

/-- The pieces of a string that was closed. -/
theorem spells_of_glyphs {gs : List Glyph} (read : glyphs cs = (gs, none, rest)) :
    ∃ inside, cs = inside ++ '"' :: rest ∧ SpellsGlyphs gs inside := by
  fun_induction glyphs cs generalizing gs with
  | case2 =>
      cases read
      exact ⟨[], rfl, .nil⟩
  | case4 a b c d r code stands ih =>
      obtain ⟨gs', rfl, others⟩ := cons_read_eq read
      obtain ⟨inside, rfl, pieces⟩ := ih others
      exact ⟨_, rfl, .cons (.code stands) pieces⟩
  | case7 c r _ _ e stands ih =>
      obtain ⟨gs', rfl, others⟩ := cons_read_eq read
      obtain ⟨inside, rfl, pieces⟩ := ih others
      exact ⟨_, rfl, .cons (.short stands) pieces⟩
  | case10 c r quote _ _ _ escape visible ih =>
      obtain ⟨gs', rfl, others⟩ := cons_read_eq read
      obtain ⟨inside, rfl, pieces⟩ := ih others
      obtain ⟨c', r', more⟩ := List.exists_cons_of_ne_nil
        (List.append_ne_nil_of_right_ne_nil inside (List.cons_ne_nil '"' rest))
      exact ⟨_, rfl, .cons (.plain quote (fun same => escape c' r' same more) (by omega)) pieces⟩
  | case1 | case3 | case5 | case6 | case8 | case9 => cases read

/-- A string that was closed. -/
theorem spells_of_readString {t : Token String} (read : readString cs = (t, some rest)) :
    ∃ inside, cs = inside ++ rest ∧ SpellsString t ('"' :: inside) := by
  unfold readString at read
  split at read
  rename_i pieces stop after found
  obtain ⟨rfl, same⟩ := Prod.mk.inj read
  cases stop with
  | some f => cases same
  | none =>
      cases same
      obtain ⟨inside, rfl, spelled⟩ := spells_of_glyphs found
      exact ⟨inside ++ ['"'], by simp, pieces, inside, spelled, rfl, rfl⟩

/-! ### Words and numbers -/

theorem spells_of_readWord {w : Word} {t : Token Word}
    (read : readWord w w.name cs = (t, some rest)) :
    cs = w.name.toList ++ rest ∧ t = .good w := by
  unfold readWord at read
  split at read
  · rename_i front
    obtain ⟨tail, rfl⟩ := List.isPrefixOf_iff_prefix.mp front
    cases read
    rw [← String.length_toList, List.drop_left]
    exact ⟨rfl, rfl⟩
  · cases read

/-- The digits at the front of a text, if there are any. -/
theorem digits_takeWhile (given : (cs.takeWhile Char.isDigit).isEmpty = false) :
    Digits (cs.takeWhile Char.isDigit) where
  digit _ member := List.mem_takeWhile_imp member
  nonempty := List.isEmpty_eq_false_iff.mp given

/-- A row of digits that must not be empty. -/
theorem spells_of_digits {t t' missing : Token Number}
    (read : (if (cs.takeWhile Char.isDigit).isEmpty then (missing, none)
      else (t', some (cs.dropWhile Char.isDigit))) = (t, some rest)) :
    Digits (cs.takeWhile Char.isDigit) ∧ cs = cs.takeWhile Char.isDigit ++ rest ∧ t = t' := by
  split at read
  · cases read
  · rename_i given
    cases read
    have whole := (List.takeWhile_append_dropWhile (p := Char.isDigit) (l := cs)).symm
    exact ⟨digits_takeWhile (Bool.eq_false_iff.mpr given), whole, rfl⟩

theorem spells_of_readExponent {n : Numeral} {t : Token Number}
    (read : readExponent n cs = (t, some rest)) (bare : n.exponent = none) :
    ∃ exponent text, cs = text ++ rest ∧ SpellsExponent exponent text ∧
      t = { n with exponent := exponent }.token := by
  unfold readExponent at read
  split at read
  · rename_i c r
    split at read
    · rename_i mark
      dsimp only at read
      split at read
      · obtain ⟨valid, same, rfl⟩ := spells_of_digits read
        exact ⟨_, _, congrArg (c :: '-' :: ·) same, .some mark .minus valid, rfl⟩
      · obtain ⟨valid, same, rfl⟩ := spells_of_digits read
        exact ⟨_, _, congrArg (c :: '+' :: ·) same, .some mark .plus valid, rfl⟩
      · obtain ⟨valid, same, rfl⟩ := spells_of_digits read
        exact ⟨_, _, congrArg (c :: ·) same, .some mark .none valid, rfl⟩
    · cases read
      exact ⟨none, [], rfl, .none, by rw [← bare]⟩
  · cases read
    exact ⟨none, [], rfl, .none, by rw [← bare]⟩

theorem spells_of_readFraction {n : Numeral} {t : Token Number}
    (read : readFraction n cs = (t, some rest)) (bare : n.fraction = none ∧ n.exponent = none) :
    ∃ fraction exponent text text', cs = text ++ (text' ++ rest) ∧ SpellsFraction fraction text ∧
      SpellsExponent exponent text' ∧
      t = { n with fraction := fraction, exponent := exponent }.token := by
  unfold readFraction at read
  split at read
  · rename_i r
    dsimp only at read
    split at read
    · cases read
    · rename_i given
      obtain ⟨exponent, text', same, spelled, rfl⟩ := spells_of_readExponent read bare.2
      have whole := (List.takeWhile_append_dropWhile (p := Char.isDigit) (l := r)).symm
      rw [same] at whole
      exact ⟨_, exponent, _, text', congrArg ('.' :: ·) whole,
        .some (digits_takeWhile (Bool.eq_false_iff.mpr given)), spelled, rfl⟩
  · obtain ⟨exponent, text', same, spelled, rfl⟩ := spells_of_readExponent read bare.2
    exact ⟨none, exponent, [], text', same, .none, spelled, by rw [← bare.1]⟩

theorem cutMinus_eq (cs : List Char) :
    cs = (if (cutMinus cs).1 then ['-'] else []) ++ (cutMinus cs).2 := by
  unfold cutMinus
  split <;> rfl

/-- A number that was read to its end. -/
theorem spells_of_readNumber {t : Token Number} (read : readNumber cs = (t, some rest)) :
    ∃ n text, cs = text ++ rest ∧ SpellsNumeral n text ∧ t = n.token := by
  have sign := cutMinus_eq cs
  rw [readNumber_eq] at read
  generalize cutMinus cs = cut at sign read
  obtain ⟨minus, r⟩ := cut
  split at read
  · cases read
  · cases read
  · rename_i given lead
    obtain ⟨fraction, exponent, text, text', same, spelled, spelled', rfl⟩ :=
      spells_of_readFraction read ⟨rfl, rfl⟩
    have whole := (List.takeWhile_append_dropWhile (p := Char.isDigit) (l := r)).symm
    rw [same] at whole
    have digits : Whole (r.takeWhile Char.isDigit) := by
      refine ⟨fun _ => List.mem_takeWhile_imp, given, fun tail front => ?_⟩
      cases tail with
      | nil => rfl
      | cons c tail => exact absurd front (lead c tail)
    refine ⟨⟨minus, r.takeWhile Char.isDigit, fraction, exponent⟩, _, ?_,
      ⟨text, text', digits, spelled, spelled', rfl⟩, rfl⟩
    rw [sign]
    simp only [List.append_assoc]
    rw [← whole]

/-! ### Values -/

theorem blank_skipBlanks (cs : List Char) : ∃ blank, Blank blank ∧ cs = blank ++ skipBlanks cs :=
  ⟨_, fun _ member => by simpa using List.mem_takeWhile_imp member,
    List.takeWhile_append_dropWhile.symm⟩

theorem Blank.append {blank blank' : List Char} (first : Blank blank) (second : Blank blank') :
    Blank (blank ++ blank') :=
  List.forall_mem_append.mpr ⟨first, second⟩

theorem SpellsItems.blank {blank : List Char} (blanks : Blank blank) {items : List Doc}
    (spelled : SpellsItems items cs) : SpellsItems items (blank ++ cs) := by
  cases spelled with
  | last before value after =>
      rw [← List.append_assoc]
      exact .last (blanks.append before) value after
  | more before value after others =>
      rw [← List.append_assoc]
      exact .more (blanks.append before) value after others

theorem SpellsMembers.blank {blank : List Char} (blanks : Blank blank)
    {members : List (Token String × Doc)} (spelled : SpellsMembers members cs) :
    SpellsMembers members (blank ++ cs) := by
  cases spelled with
  | last before named between blankMore value after =>
      rw [← List.append_assoc]
      exact .last (blanks.append before) named between blankMore value after
  | more before named between blankMore value after others =>
      rw [← List.append_assoc]
      exact .more (blanks.append before) named between blankMore value after others

/-- What is read up to a closing mark, behind a comma unless it is the first. -/
def Closed {α : Type} (spells : List α → List Char → Prop) (mark : Char) (first : Bool)
    (row : List α) (cs rest : List Char) : Prop :=
  ∃ blank, Blank blank ∧ ((row = [] ∧ cs = blank ++ mark :: rest) ∨
    ∃ text, spells row text ∧
      cs = blank ++ ((if first then [] else [',']) ++ (text ++ mark :: rest)))

theorem leaf_eq {α : Type} {make : Token α → Doc} {t : Token α × Option (List Char)} {d : Doc}
    (read : leaf make t = (d, some rest)) : ∃ token, t = (token, some rest) ∧ d = make token := by
  obtain ⟨rfl, same⟩ := Prod.mk.inj read
  exact ⟨t.1, Prod.ext rfl same, rfl⟩

theorem row_eq {α : Type} (make : List α → Option Fault → Doc)
    {x : List α × Option Fault × Option (List Char)} {d : Doc}
    (read : (make x.1 x.2.1, x.2.2) = (d, some rest)) :
    ∃ row stop, x = (row, stop, some rest) ∧ d = make row stop := by
  obtain ⟨rfl, same⟩ := Prod.mk.inj read
  exact ⟨x.1, x.2.1, Prod.ext rfl (Prod.ext rfl same), rfl⟩

mutual

/-- A value that was read to its end stands there, maybe behind blanks. -/
theorem spells_of_readValue (fuel : Nat) {cs rest : List Char} {d : Doc}
    (read : readValue fuel cs = (d, some rest)) :
    ∃ blank text, Blank blank ∧ Spells d text ∧ cs = blank ++ (text ++ rest) := by
  cases fuel with
  | zero => cases read
  | succ fuel =>
      obtain ⟨blank, blanks, front⟩ := blank_skipBlanks cs
      rw [readValue] at read
      split at read
      · cases read
      · rename_i r here
        rw [here] at front
        obtain ⟨t, found, rfl⟩ := leaf_eq read
        obtain ⟨inside, rfl, spelled⟩ := spells_of_readString found
        exact ⟨blank, _, blanks, .string spelled, front⟩
      · rename_i r here
        rw [here] at front
        obtain ⟨items, stop, found, rfl⟩ := row_eq .array read
        obtain ⟨rfl, blank', blanks', ⟨rfl, rfl⟩ | ⟨text, spelled, rfl⟩⟩ :=
          spells_of_readItems fuel found
        · exact ⟨blank, '[' :: (blank' ++ [']']), blanks, .noItems blanks', by simp [front]⟩
        · exact ⟨blank, '[' :: ((blank' ++ text) ++ [']']), blanks, .array (spelled.blank blanks'),
            by simp [front]⟩
      · rename_i r here
        rw [here] at front
        obtain ⟨members, stop, found, rfl⟩ := row_eq .object read
        obtain ⟨rfl, blank', blanks', ⟨rfl, rfl⟩ | ⟨text, spelled, rfl⟩⟩ :=
          spells_of_readMembers fuel found
        · exact ⟨blank, '{' :: (blank' ++ ['}']), blanks, .noMembers blanks', by simp [front]⟩
        · exact ⟨blank, '{' :: ((blank' ++ text) ++ ['}']), blanks,
            .object (spelled.blank blanks'), by simp [front]⟩
      · rename_i c r _ _ _ here
        rw [here] at front
        have word (w : Word) (read : leaf .word (readWord w w.name (c :: r)) = (d, some rest)) :
            ∃ blank text, Blank blank ∧ Spells d text ∧ cs = blank ++ (text ++ rest) := by
          obtain ⟨t, found, rfl⟩ := leaf_eq read
          obtain ⟨same, rfl⟩ := spells_of_readWord found
          exact ⟨blank, _, blanks, .word w, same ▸ front⟩
        split at read
        · exact word .null read
        · split at read
          · exact word .true read
          · split at read
            · exact word .false read
            · split at read
              · obtain ⟨t, found, rfl⟩ := leaf_eq read
                obtain ⟨n, text, same, spelled, rfl⟩ := spells_of_readNumber found
                exact ⟨blank, text, blanks, .number spelled, same ▸ front⟩
              · cases read

theorem spells_of_readItems (fuel : Nat) {first : Bool} {cs rest : List Char} {items : List Doc}
    {stop : Option Fault} (read : readItems fuel first cs = (items, stop, some rest)) :
    stop = none ∧ Closed SpellsItems ']' first items cs rest := by
  cases fuel with
  | zero => cases read
  | succ fuel =>
      obtain ⟨blank, blanks, front⟩ := blank_skipBlanks cs
      rw [readItems] at read
      split at read
      · cases read
      · rename_i r here
        rw [here] at front
        cases read
        exact ⟨rfl, blank, blanks, .inl ⟨rfl, front⟩⟩
      · rename_i c r _ here
        rw [here] at front
        split at read
        · rename_i isFirst
          obtain ⟨closed, text, spelled, same⟩ := spells_of_readItem fuel read
          exact ⟨closed, blank, blanks, .inr ⟨text, spelled, by rw [front, same, isFirst]; rfl⟩⟩
        · rename_i later
          split at read
          · rename_i comma
            obtain ⟨blank', blanks', more⟩ := blank_skipBlanks r
            split at read
            · cases read
            · cases read
            · obtain ⟨closed, text, spelled, same⟩ := spells_of_readItem fuel read
              exact ⟨closed, blank, blanks, .inr ⟨_, spelled.blank blanks',
                by rw [front, comma, if_neg later, more, same, List.append_assoc]; rfl⟩⟩
          · cases read

theorem spells_of_readItem (fuel : Nat) {cs rest : List Char} {items : List Doc}
    {stop : Option Fault} (read : readItem fuel cs = (items, stop, some rest)) :
    stop = none ∧ ∃ text, SpellsItems items text ∧ cs = text ++ ']' :: rest := by
  cases fuel with
  | zero => cases read
  | succ fuel =>
      rw [readItem] at read
      split at read
      · cases read
      · rename_i d after found
        obtain ⟨items', rfl, others⟩ := cons_read_eq read
        obtain ⟨blank, text, blanks, value, rfl⟩ := spells_of_readValue fuel found
        obtain ⟨closed, blank', blanks', ⟨rfl, rfl⟩ | ⟨text', spelled, rfl⟩⟩ :=
          spells_of_readItems fuel others
        · exact ⟨closed, _, .last blanks value blanks', by simp⟩
        · exact ⟨closed, _, .more blanks value blanks' spelled, by simp⟩

theorem spells_of_readMembers (fuel : Nat) {first : Bool} {cs rest : List Char}
    {members : List (Token String × Doc)} {stop : Option Fault}
    (read : readMembers fuel first cs = (members, stop, some rest)) :
    stop = none ∧ Closed SpellsMembers '}' first members cs rest := by
  cases fuel with
  | zero => cases read
  | succ fuel =>
      obtain ⟨blank, blanks, front⟩ := blank_skipBlanks cs
      rw [readMembers] at read
      split at read
      · cases read
      · rename_i r here
        rw [here] at front
        cases read
        exact ⟨rfl, blank, blanks, .inl ⟨rfl, front⟩⟩
      · rename_i c r _ here
        rw [here] at front
        split at read
        · rename_i isFirst
          obtain ⟨closed, text, spelled, same⟩ := spells_of_readMember fuel read
          exact ⟨closed, blank, blanks, .inr ⟨text, spelled, by rw [front, same, isFirst]; rfl⟩⟩
        · rename_i later
          split at read
          · rename_i comma
            obtain ⟨blank', blanks', more⟩ := blank_skipBlanks r
            split at read
            · cases read
            · cases read
            · obtain ⟨closed, text, spelled, same⟩ := spells_of_readMember fuel read
              exact ⟨closed, blank, blanks, .inr ⟨_, spelled.blank blanks',
                by rw [front, comma, if_neg later, more, same, List.append_assoc]; rfl⟩⟩
          · cases read

theorem spells_of_readMember (fuel : Nat) {cs rest : List Char}
    {members : List (Token String × Doc)} {stop : Option Fault}
    (read : readMember fuel cs = (members, stop, some rest)) :
    stop = none ∧ ∃ text, SpellsMembers members text ∧ cs = text ++ '}' :: rest := by
  cases fuel with
  | zero => cases read
  | succ fuel =>
      rw [readMember.eq_def] at read
      dsimp only at read
      split at read
      · split at read
        · cases read
        · rename_i key between found
          obtain ⟨inside, rfl, named⟩ := spells_of_readString found
          obtain ⟨blank, blanks, front⟩ := blank_skipBlanks between
          split at read
          · cases read
          · rename_i r colon
            rw [colon] at front
            split at read
            · cases read
            · rename_i d after valueRead
              obtain ⟨members', rfl, others⟩ := cons_read_eq read
              obtain ⟨blank', text, blanks', value, rfl⟩ := spells_of_readValue fuel valueRead
              obtain ⟨closed, blank'', blanks'', ⟨rfl, rfl⟩ | ⟨text', spelled, rfl⟩⟩ :=
                spells_of_readMembers fuel others
              · exact ⟨closed, _, .last blank_nil named blanks blanks' value blanks'', by
                  simp [front]⟩
              · exact ⟨closed, _, .more blank_nil named blanks blanks' value blanks'' spelled, by
                  simp [front]⟩
          · cases read
      · cases read

end

/-- A text is a spelling of its outline if only blanks stand behind its value. -/
theorem spells_of_outline {s : String} (clean : (outline s).clean = true) :
    SpellsText (outline s).doc s := by
  unfold outline at clean ⊢
  dsimp only at clean ⊢
  cases read : readValue (3 * s.toList.length + 3) s.toList with
  | mk d after =>
      cases after with
      | none =>
          simp only [read] at clean
          cases clean
      | some after =>
          simp only [read, List.isEmpty_iff] at clean
          obtain ⟨blank, text, blanks, value, same⟩ := spells_of_readValue _ read
          obtain ⟨blank', blanks', ends⟩ := blank_skipBlanks after
          rw [clean, List.append_nil] at ends
          exact ⟨blank, text, blank', blanks, value, blanks', ends ▸ same⟩

end RunControl.Json
