import RunControl.Json.Doc
import RunControl.Proofs.Json.Numeral

/-!
How a document may be spelled, and that every spelling is read.

The grammar of texts is stated here apart from the reader: blanks may stand between tokens, and a
character of a string may stand for itself or be escaped in several ways. Whatever way is chosen,
the reader finds the outline of the document (`outline_of_spells`).
-/

namespace RunControl.Json

/-! ### Spellings -/

/-- Blanks between tokens. -/
def Blank (cs : List Char) : Prop :=
  ∀ c ∈ cs, c = ' ' ∨ c = '\n' ∨ c = '\r' ∨ c = '\t'

/-- `SpellsGlyph g cs`: inside of a string the piece `g` may stand as `cs`. -/
inductive SpellsGlyph : Glyph → List Char → Prop where
  | plain {c : Char} (quote : c ≠ '"') (backslash : c ≠ '\\') (visible : 0x20 ≤ c.toNat) :
      SpellsGlyph (.char c) [c]
  | short {e c : Char} (stands : escaped? e = some c) : SpellsGlyph (.char c) ['\\', e]
  | code {a b c d : Char} {code : Nat} (stands : hexCode? a b c d = some code) :
      SpellsGlyph (.ofCode code) ['\\', 'u', a, b, c, d]

inductive SpellsGlyphs : List Glyph → List Char → Prop where
  | nil : SpellsGlyphs [] []
  | cons {g : Glyph} {gs : List Glyph} {cs rest : List Char} (first : SpellsGlyph g cs)
      (others : SpellsGlyphs gs rest) : SpellsGlyphs (g :: gs) (cs ++ rest)

/-- What a string of these pieces holds: a text, unless half of a pair stands alone. -/
def content (gs : List Glyph) : Token String :=
  ⟨(joinGlyphs none gs).map String.ofList, none⟩

def SpellsString (t : Token String) (cs : List Char) : Prop :=
  ∃ gs inside, SpellsGlyphs gs inside ∧ t = content gs ∧ cs = '"' :: (inside ++ ['"'])

/-- At least one digit. -/
structure Digits (cs : List Char) : Prop where
  digit : ∀ c ∈ cs, c.isDigit = true
  nonempty : cs ≠ []

inductive SpellsFraction : Option (List Char) → List Char → Prop where
  | none : SpellsFraction none []
  | some {digits : List Char} (valid : Digits digits) : SpellsFraction (some digits) ('.' :: digits)

inductive SpellsSign : Bool → List Char → Prop where
  | minus : SpellsSign true ['-']
  | plus : SpellsSign false ['+']
  | none : SpellsSign false []

inductive SpellsExponent : Option (Bool × List Char) → List Char → Prop where
  | none : SpellsExponent none []
  | some {mark : Char} {down : Bool} {sign digits : List Char} (marks : mark = 'e' ∨ mark = 'E')
      (signed : SpellsSign down sign) (valid : Digits digits) :
      SpellsExponent (some (down, digits)) (mark :: (sign ++ digits))

def SpellsNumeral (n : Numeral) (cs : List Char) : Prop :=
  ∃ fraction exponent, Whole n.whole ∧ SpellsFraction n.fraction fraction ∧
    SpellsExponent n.exponent exponent ∧
    cs = (if n.minus then ['-'] else []) ++ (n.whole ++ (fraction ++ exponent))

/-- The name of a word. -/
def Word.name : Word → String
  | .null => "null"
  | .true => "true"
  | .false => "false"

mutual

/-- `Spells d cs`: the document `d` may stand as `cs`, without blanks around it. -/
inductive Spells : Doc → List Char → Prop where
  | word (w : Word) : Spells (.word (.good w)) w.name.toList
  | number {n : Numeral} {cs : List Char} (spelled : SpellsNumeral n cs) :
      Spells (.number n.token) cs
  | string {t : Token String} {cs : List Char} (spelled : SpellsString t cs) :
      Spells (.string t) cs
  | noItems {blank : List Char} (blanks : Blank blank) :
      Spells (.array [] none) ('[' :: (blank ++ [']']))
  | array {items : List Doc} {cs : List Char} (spelled : SpellsItems items cs) :
      Spells (.array items none) ('[' :: (cs ++ [']']))
  | noMembers {blank : List Char} (blanks : Blank blank) :
      Spells (.object [] none) ('{' :: (blank ++ ['}']))
  | object {members : List (Token String × Doc)} {cs : List Char}
      (spelled : SpellsMembers members cs) : Spells (.object members none) ('{' :: (cs ++ ['}']))

/-- Items with commas between them, and blanks around each. -/
inductive SpellsItems : List Doc → List Char → Prop where
  | last {d : Doc} {before cs after : List Char} (blankBefore : Blank before) (value : Spells d cs)
      (blankAfter : Blank after) : SpellsItems [d] (before ++ (cs ++ after))
  | more {d : Doc} {items : List Doc} {before cs after rest : List Char}
      (blankBefore : Blank before) (value : Spells d cs) (blankAfter : Blank after)
      (others : SpellsItems items rest) :
      SpellsItems (d :: items) (before ++ (cs ++ (after ++ ',' :: rest)))

/-- Members with commas between them, and blanks around their keys and values. -/
inductive SpellsMembers : List (Token String × Doc) → List Char → Prop where
  | last {key : Token String} {d : Doc} {before name between blank cs after : List Char}
      (blankBefore : Blank before) (named : SpellsString key name) (blankBetween : Blank between)
      (blankMore : Blank blank) (value : Spells d cs) (blankAfter : Blank after) :
      SpellsMembers [(key, d)] (before ++ (name ++ (between ++ ':' :: (blank ++ (cs ++ after)))))
  | more {key : Token String} {d : Doc} {members : List (Token String × Doc)}
      {before name between blank cs after rest : List Char}
      (blankBefore : Blank before) (named : SpellsString key name) (blankBetween : Blank between)
      (blankMore : Blank blank) (value : Spells d cs) (blankAfter : Blank after)
      (others : SpellsMembers members rest) :
      SpellsMembers ((key, d) :: members)
        (before ++ (name ++ (between ++ ':' :: (blank ++ (cs ++ (after ++ ',' :: rest))))))

end

/-- A whole text: a value with blanks around it. -/
def SpellsText (d : Doc) (s : String) : Prop :=
  ∃ before cs after, Blank before ∧ Spells d cs ∧ Blank after ∧ s.toList = before ++ (cs ++ after)

/-! ### Strings are read -/

variable {cs rest : List Char} {gs : List Glyph} {t : Token String}

theorem glyphs_of_spellsGlyph {g : Glyph} (spelled : SpellsGlyph g cs) (rest : List Char) :
    glyphs (cs ++ rest) = g.before (glyphs rest) := by
  cases spelled with
  | plain quote backslash visible =>
      rw [List.singleton_append, glyphs.eq_7, if_neg (by omega)]
      · exact quote
      · intro escapes
        exact absurd escapes backslash
      all_goals
        intros
        contradiction
  | @short e c stands =>
      have other : e ≠ 'u' := by
        rintro rfl
        cases stands
      show glyphs ('\\' :: e :: rest) = _
      rw [glyphs.eq_6 _ _ (by simp_all) (by simp_all), stands]
  | code stands =>
      rw [List.cons_append, List.cons_append, List.cons_append, List.cons_append, List.cons_append,
        List.cons_append, List.nil_append, glyphs, stands]

theorem glyphs_of_spells (spelled : SpellsGlyphs gs cs) (rest : List Char) :
    glyphs (cs ++ '"' :: rest) = (gs, none, rest) := by
  induction spelled with
  | nil => rw [List.nil_append, glyphs]
  | cons first others ih =>
      rw [List.append_assoc, glyphs_of_spellsGlyph first, ih]
      rfl

/-- A string is read up to its closing quote. -/
theorem readString_of_spells (spelled : SpellsString t cs) (rest : List Char) :
    ∃ inside, cs ++ rest = '"' :: inside ∧ readString inside = (t, some rest) := by
  obtain ⟨gs, inside, pieces, rfl, rfl⟩ := spelled
  refine ⟨inside ++ '"' :: rest, by simp, ?_⟩
  rw [readString, glyphs_of_spells pieces]
  rfl

/-! ### Numerals are read -/

/-- A row of digits does not go on with this text. -/
def NoDigit (rest : List Char) : Prop :=
  ∀ c r, rest = c :: r → c.isDigit = false

/-- No numeral goes on with this text. -/
def Apart (rest : List Char) : Prop :=
  ∀ c r, rest = c :: r → c.isDigit = false ∧ c ≠ '.' ∧ c ≠ 'e' ∧ c ≠ 'E'

theorem ne_of_isDigit {c d : Char} (digit : c.isDigit = true) (other : d.isDigit = false) :
    c ≠ d := by
  rintro rfl
  exact nomatch digit.symm.trans other

/-- A row of digits is taken as far as it goes. -/
theorem take_digits {digits : List Char} (digit : ∀ c ∈ digits, c.isDigit = true)
    (ends : NoDigit rest) : (digits ++ rest).takeWhile Char.isDigit = digits ∧
      (digits ++ rest).dropWhile Char.isDigit = rest := by
  rw [List.takeWhile_append_of_pos digit, List.dropWhile_append_of_pos digit]
  cases rest with
  | nil => simp
  | cons c r => simp [ends c r rfl]

/-- Neither a digit nor a point stands at the start of an exponent or of what follows it. -/
theorem exponent_apart {exponent : Option (Bool × List Char)}
    (spelled : SpellsExponent exponent cs) (apart : Apart rest) :
    ∀ c r, cs ++ rest = c :: r → c.isDigit = false ∧ c ≠ '.' := by
  intro c r here
  cases spelled with
  | none =>
      obtain ⟨digit, point, -⟩ := apart c r here
      exact ⟨digit, point⟩
  | some marks =>
      cases here
      rcases marks with rfl | rfl
      · decide
      · decide

theorem readExponent_of_spells {n : Numeral} {exponent : Option (Bool × List Char)}
    (spelled : SpellsExponent exponent cs) (apart : Apart rest) (bare : n.exponent = none) :
    readExponent n (cs ++ rest) = ({ n with exponent := exponent }.token, some rest) := by
  cases spelled with
  | none =>
      rw [List.nil_append, ← bare]
      cases rest with
      | nil => rfl
      | cons c r =>
          obtain ⟨-, -, lower, upper⟩ := apart c r rfl
          simp [readExponent, lower, upper]
  | @some mark down sign digits marks signed valid =>
      obtain ⟨taken, dropped⟩ := take_digits valid.digit fun c r here => (apart c r here).1
      have given := valid.nonempty
      rw [List.cons_append, List.append_assoc]
      cases signed with
      | minus => simp [readExponent, marks, taken, dropped, given]
      | plus => simp [readExponent, marks, taken, dropped, given]
      | none =>
          obtain ⟨c, r, rfl⟩ := List.exists_cons_of_ne_nil given
          have digit := valid.digit c (.head _)
          have minus := ne_of_isDigit digit (d := '-') rfl
          have plus := ne_of_isDigit digit (d := '+') rfl
          rw [List.cons_append] at taken dropped
          simp [readExponent, marks, taken, dropped, minus, plus]

theorem readFraction_of_spells {n : Numeral} {fraction : Option (List Char)}
    {exponent : Option (Bool × List Char)} {cs' : List Char}
    (spelled : SpellsFraction fraction cs) (more : SpellsExponent exponent cs')
    (apart : Apart rest) (bare : n.fraction = none ∧ n.exponent = none) :
    readFraction n (cs ++ (cs' ++ rest)) =
      ({ n with fraction := fraction, exponent := exponent }.token, some rest) := by
  have after := exponent_apart more apart
  cases spelled with
  | none =>
      rw [List.nil_append, readFraction]
      · rw [readExponent_of_spells more apart bare.2, ← bare.1]
      · intro r point
        exact (after '.' r point).2 rfl
  | some valid =>
      obtain ⟨taken, dropped⟩ := take_digits valid.digit fun c r here => (after c r here).1
      have given := List.isEmpty_eq_false_iff.mpr valid.nonempty
      rw [List.cons_append, readFraction, taken, dropped, given, if_neg Bool.false_ne_true]
      exact readExponent_of_spells more apart bare.2

/-- The minus at the front of a numeral, if there is one, and what stands behind it. -/
def cutMinus : List Char → Bool × List Char
  | '-' :: r => (true, r)
  | r => (false, r)

theorem readNumber_eq (cs : List Char) :
    readNumber cs = match (cutMinus cs).2.takeWhile Char.isDigit with
      | [] => (missingDigit (cutMinus cs).2, none)
      | '0' :: _ :: _ => (.bad .malformed, none)
      | _ => readFraction (.ofWhole (cutMinus cs).1 ((cutMinus cs).2.takeWhile Char.isDigit))
          ((cutMinus cs).2.dropWhile Char.isDigit) := rfl

/-- Digits that are a whole part are neither missing nor led by a needless zero. -/
theorem readNumber_of_whole {digits : List Char} (whole : Whole digits) (minus : Bool)
    (ends : NoDigit rest) :
    readNumber ((if minus then ['-'] else []) ++ (digits ++ rest)) =
      readFraction (.ofWhole minus digits) rest := by
  obtain ⟨taken, dropped⟩ := take_digits whole.digit ends
  have cut : cutMinus ((if minus then ['-'] else []) ++ (digits ++ rest)) =
      (minus, digits ++ rest) := by
    cases minus with
    | true => rfl
    | false =>
        obtain ⟨c, r, rfl⟩ := List.exists_cons_of_ne_nil whole.nonempty
        have sign := ne_of_isDigit (whole.digit c (.head _)) (d := '-') rfl
        show cutMinus (c :: (r ++ rest)) = (false, c :: (r ++ rest))
        rw [cutMinus]
        intro s same
        exact sign (List.cons.inj same).1
  rw [readNumber_eq, cut]
  dsimp only
  rw [taken, dropped]
  split
  · exact absurd rfl whole.nonempty
  · cases whole.zero _ rfl
  · rfl

theorem readNumber_of_spells {n : Numeral} (spelled : SpellsNumeral n cs) (apart : Apart rest) :
    readNumber (cs ++ rest) = (n.token, some rest) := by
  obtain ⟨fraction, exponent, whole, spelledFraction, spelledExponent, rfl⟩ := spelled
  obtain ⟨minus, digits, _, _⟩ := n
  have after := exponent_apart spelledExponent apart
  have ends : NoDigit (fraction ++ (exponent ++ rest)) := by
    intro c r here
    cases spelledFraction with
    | none => exact (after c r here).1
    | some _ =>
        cases here
        rfl
  rw [List.append_assoc, List.append_assoc, List.append_assoc, readNumber_of_whole whole _ ends]
  exact readFraction_of_spells spelledFraction spelledExponent apart ⟨rfl, rfl⟩

/-! ### Blanks -/

theorem blank_nil : Blank [] := nofun

theorem skipBlanks_append {blank : List Char} (blanks : Blank blank) (cs : List Char) :
    skipBlanks (blank ++ cs) = skipBlanks cs :=
  List.dropWhile_append_of_pos fun c member => by simpa using blanks c member

/-- Whether a value may begin with a character. -/
def begins (c : Char) : Bool :=
  ['"', '[', '{', 'n', 't', 'f', '-'].contains c || c.isDigit

theorem not_blank_of_begins {c : Char} (first : begins c = true) :
    ¬ (c = ' ' ∨ c = '\n' ∨ c = '\r' ∨ c = '\t') := by
  rintro (rfl | rfl | rfl | rfl) <;> exact absurd first (by decide)

theorem skipBlanks_cons {c : Char} (visible : ¬ (c = ' ' ∨ c = '\n' ∨ c = '\r' ∨ c = '\t'))
    (r : List Char) : skipBlanks (c :: r) = c :: r := by
  rw [skipBlanks, List.dropWhile_cons, if_neg]
  simpa using visible

/-- A numeral begins with a minus or a digit. -/
theorem begins_of_spellsNumeral {n : Numeral} (spelled : SpellsNumeral n cs) :
    ∃ c r, cs = c :: r ∧ (c = '-' ∨ c.isDigit = true) := by
  obtain ⟨fraction, exponent, whole, -, -, rfl⟩ := spelled
  obtain ⟨c, r, digits⟩ := List.exists_cons_of_ne_nil whole.nonempty
  have digit := whole.digit c (digits ▸ .head _)
  split
  · exact ⟨_, _, rfl, .inl rfl⟩
  · rw [digits]
    exact ⟨_, _, rfl, .inr digit⟩

theorem begins_of_spells {d : Doc} (spelled : Spells d cs) :
    ∃ c r, cs = c :: r ∧ begins c = true := by
  cases spelled with
  | word w =>
      cases w with
      | null => exact ⟨'n', ['u', 'l', 'l'], rfl, rfl⟩
      | true => exact ⟨'t', ['r', 'u', 'e'], rfl, rfl⟩
      | false => exact ⟨'f', ['a', 'l', 's', 'e'], rfl, rfl⟩
  | number spelled =>
      obtain ⟨c, r, rfl, rfl | digit⟩ := begins_of_spellsNumeral spelled
      · exact ⟨_, _, rfl, by decide⟩
      · exact ⟨_, _, rfl, by simp [begins, digit]⟩
  | string spelled =>
      obtain ⟨gs, inside, -, -, rfl⟩ := spelled
      exact ⟨_, _, rfl, by decide⟩
  | noItems | array | noMembers | object => exact ⟨_, _, rfl, by decide⟩

/-- Behind a value may stand a comma, or the end of an array or object. -/
theorem apart_cons {c : Char} (closes : c = ',' ∨ c = ']' ∨ c = '}') (r : List Char) :
    Apart (c :: r) := by
  intro d r' here
  cases here
  rcases closes with rfl | rfl | rfl <;> decide

/-- Before it may stand blanks. -/
theorem apart_append {after : List Char} (blanks : Blank after) (apart : Apart rest) :
    Apart (after ++ rest) := by
  intro d r here
  cases after with
  | nil => exact apart d r here
  | cons b after =>
      cases here
      rcases blanks d (.head _) with rfl | rfl | rfl | rfl <;> decide

/-! ### Values are read -/

theorem readWord_of_name (w : Word) (rest : List Char) :
    readWord w w.name (w.name.toList ++ rest) = (.good w, some rest) := by
  have front : w.name.toList.isPrefixOf (w.name.toList ++ rest) = true := by simp
  rw [readWord, if_pos front, ← String.length_toList, List.drop_left]

/-- Between a value and what it stands in there is nothing to read but blanks. -/
theorem readValue_blank {blank : List Char} (blanks : Blank blank) (fuel : Nat) (cs : List Char) :
    readValue fuel (blank ++ cs) = readValue fuel cs := by
  cases fuel with
  | zero => simp only [readValue]
  | succ fuel => rw [readValue, readValue, skipBlanks_append blanks]

theorem readValue_number {c : Char} {r : List Char} (number : c = '-' ∨ c.isDigit = true)
    (fuel : Nat) : readValue (fuel + 1) (c :: r) = leaf .number (readNumber (c :: r)) := by
  have first : begins c = true := by
    rcases number with rfl | digit
    · rfl
    · simp [begins, digit]
  have other (d : Char) (mark : d ≠ '-') (letter : d.isDigit = false) : c ≠ d := by
    rcases number with rfl | digit
    · exact mark.symm
    · exact ne_of_isDigit digit letter
  rw [readValue, skipBlanks_cons (not_blank_of_begins first)]
  split
  · rename_i none
    cases none
  · rename_i quote
    exact absurd (List.cons.inj quote).1 (other '"' (by decide) rfl)
  · rename_i bracket
    exact absurd (List.cons.inj bracket).1 (other '[' (by decide) rfl)
  · rename_i brace
    exact absurd (List.cons.inj brace).1 (other '{' (by decide) rfl)
  · rename_i same
    cases same
    rw [if_neg (other 'n' (by decide) rfl), if_neg (other 't' (by decide) rfl),
      if_neg (other 'f' (by decide) rfl), if_pos number]

theorem readValue_word (w : Word) (fuel : Nat) (rest : List Char) :
    readValue (fuel + 1) (w.name.toList ++ rest) = (.word (.good w), some rest) := by
  have read := readWord_of_name w rest
  cases w with
  | null => exact congrArg (leaf .word) read
  | true => exact congrArg (leaf .word) read
  | false => exact congrArg (leaf .word) read

/-! ### Arrays and objects are read -/

variable {blank text r : List Char} {c : Char} {fuel : Nat}

theorem readItems_close (blanks : Blank blank) (first : Bool) (rest : List Char) :
    readItems (fuel + 1) first (blank ++ ']' :: rest) = ([], none, some rest) := by
  rw [readItems, skipBlanks_append blanks, skipBlanks_cons (by decide)]
  rfl

theorem readItems_first (front : skipBlanks text = c :: r) (first : begins c = true) :
    readItems (fuel + 1) true text = readItem fuel (skipBlanks text) := by
  rw [readItems, front]
  split
  · rename_i none
    cases none
  · rename_i close
    cases close
    cases first
  · rename_i same
    cases same
    rfl

theorem readItems_comma (blanks : Blank blank) (front : skipBlanks text = c :: r)
    (first : begins c = true) :
    readItems (fuel + 1) false (blank ++ ',' :: text) = readItem fuel (skipBlanks text) := by
  rw [readItems, skipBlanks_append blanks, skipBlanks_cons (by decide)]
  simp only [Char.reduceEq, imp_self, Bool.false_eq_true, if_false, if_true, front]
  split
  · rename_i none
    cases none
  · rename_i close
    cases close
    cases first
  · rfl

theorem readMembers_close (blanks : Blank blank) (first : Bool) (rest : List Char) :
    readMembers (fuel + 1) first (blank ++ '}' :: rest) = ([], none, some rest) := by
  rw [readMembers, skipBlanks_append blanks, skipBlanks_cons (by decide)]
  rfl

theorem readMembers_first (front : skipBlanks text = '"' :: r) :
    readMembers (fuel + 1) true text = readMember fuel (skipBlanks text) := by
  rw [readMembers, front]
  rfl

theorem readMembers_comma (blanks : Blank blank) (front : skipBlanks text = '"' :: r) :
    readMembers (fuel + 1) false (blank ++ ',' :: text) = readMember fuel (skipBlanks text) := by
  rw [readMembers, skipBlanks_append blanks, skipBlanks_cons (by decide)]
  simp only [Char.reduceEq, imp_self, Bool.false_eq_true, if_false, if_true, front]
  rfl

/-- The key of a member, the colon, and the value behind it. -/
theorem readMember_key {key : Token String} {name between : List Char} {d : Doc}
    (named : SpellsString key name) (blankBetween : Blank between)
    (value : readValue fuel text = (d, some rest)) :
    readMember (fuel + 1) (name ++ (between ++ ':' :: text)) =
      ((key, d) :: (readMembers fuel false rest).1, (readMembers fuel false rest).2) := by
  obtain ⟨inside, front, read⟩ := readString_of_spells named (between ++ ':' :: text)
  rw [front, readMember]
  simp only [read, skipBlanks_append blankBetween, skipBlanks_cons (c := ':') (by decide), value]

/-- The first character of items is that of a value. -/
theorem front_of_spellsItems {items : List Doc} (spelled : SpellsItems items cs)
    (rest : List Char) : ∃ c r, skipBlanks (cs ++ rest) = c :: r ∧ begins c = true := by
  cases spelled with
  | last blankBefore value | more blankBefore value =>
      obtain ⟨c, r, rfl, first⟩ := begins_of_spells value
      simp only [List.append_assoc, List.cons_append]
      exact ⟨c, _, by rw [skipBlanks_append blankBefore,
        skipBlanks_cons (not_blank_of_begins first)], first⟩

theorem front_of_spellsMembers {members : List (Token String × Doc)}
    (spelled : SpellsMembers members cs) (rest : List Char) :
    ∃ r, skipBlanks (cs ++ rest) = '"' :: r := by
  cases spelled with
  | last blankBefore named | more blankBefore named =>
      obtain ⟨gs, inside, -, -, rfl⟩ := named
      simp only [List.append_assoc, List.cons_append]
      exact ⟨_, by rw [skipBlanks_append blankBefore, skipBlanks_cons (by decide)]⟩

theorem readItem_value {d : Doc} (value : readValue fuel cs = (d, some rest)) :
    readItem (fuel + 1) cs =
      (d :: (readItems fuel false rest).1, (readItems fuel false rest).2) := by
  simp only [readItem, value]

theorem readValue_array (fuel : Nat) (text : List Char) :
    readValue (fuel + 1) ('[' :: text) =
      (.array (readItems fuel true text).1 (readItems fuel true text).2.1,
        (readItems fuel true text).2.2) := by
  rw [readValue, skipBlanks_cons (by decide)]
  rfl

theorem readValue_object (fuel : Nat) (text : List Char) :
    readValue (fuel + 1) ('{' :: text) =
      (.object (readMembers fuel true text).1 (readMembers fuel true text).2.1,
        (readMembers fuel true text).2.2) := by
  rw [readValue, skipBlanks_cons (by decide)]
  rfl

theorem skipBlanks_value {before : List Char} (blanks : Blank before)
    {d : Doc} (spelled : Spells d cs) (text : List Char) :
    skipBlanks (before ++ (cs ++ text)) = cs ++ text := by
  obtain ⟨c, r, rfl, first⟩ := begins_of_spells spelled
  rw [skipBlanks_append blanks, List.cons_append, skipBlanks_cons (not_blank_of_begins first)]

theorem skipBlanks_name {before name : List Char} (blanks : Blank before) {key : Token String}
    (named : SpellsString key name) (text : List Char) :
    skipBlanks (before ++ (name ++ text)) = name ++ text := by
  obtain ⟨gs, inside, -, -, rfl⟩ := named
  rw [skipBlanks_append blanks, List.cons_append, skipBlanks_cons (by decide)]

theorem one_le_of_spells {d : Doc} (spelled : Spells d cs) : 1 ≤ cs.length := by
  obtain ⟨c, r, rfl, -⟩ := begins_of_spells spelled
  simp

mutual

/-- A value is read up to its end, whatever stands behind it that does not go on with a numeral. -/
theorem readValue_of_spells {d : Doc} {cs : List Char} (spelled : Spells d cs) (fuel : Nat)
    {rest : List Char} (enough : 3 * cs.length ≤ fuel) (apart : Apart rest) :
    readValue fuel (cs ++ rest) = (d, some rest) := by
  have one := one_le_of_spells spelled
  obtain ⟨fuel, rfl⟩ : ∃ f, fuel = f + 3 := ⟨fuel - 3, by omega⟩
  cases spelled with
  | word w => exact readValue_word w _ rest
  | number spelled =>
      obtain ⟨c, r, rfl, first⟩ := begins_of_spellsNumeral spelled
      rw [List.cons_append, readValue_number first, ← List.cons_append,
        readNumber_of_spells spelled apart]
      rfl
  | string spelled =>
      obtain ⟨inside, front, read⟩ := readString_of_spells spelled rest
      rw [front, readValue, skipBlanks_cons (by decide)]
      exact congrArg (leaf .string) read
  | noItems blanks =>
      rw [List.cons_append, List.append_assoc, readValue_array]
      simp only [List.singleton_append, readItems_close blanks]
  | @array items cs spelled =>
      obtain ⟨c, r, front, first⟩ := front_of_spellsItems spelled (']' :: rest)
      have short : 3 * cs.length + 1 ≤ fuel + 1 := by
        simp only [List.length_cons, List.length_append, List.length_nil] at enough
        omega
      rw [List.cons_append, List.append_assoc, readValue_array, List.singleton_append,
        readItems_first front first, readItem_of_spells spelled _ _ short]
  | noMembers blanks =>
      rw [List.cons_append, List.append_assoc, readValue_object]
      simp only [List.singleton_append, readMembers_close blanks]
  | @object members cs spelled =>
      obtain ⟨r, front⟩ := front_of_spellsMembers spelled ('}' :: rest)
      have short : 3 * cs.length + 1 ≤ fuel + 1 := by
        simp only [List.length_cons, List.length_append, List.length_nil] at enough
        omega
      rw [List.cons_append, List.append_assoc, readValue_object, List.singleton_append,
        readMembers_first front, readMember_of_spells spelled _ _ short]
termination_by 2 * cs.length
decreasing_by
  all_goals subst_vars; simp only [List.length_append, List.length_cons, List.length_nil]; omega

theorem readItem_of_spells {items : List Doc} {cs : List Char} (spelled : SpellsItems items cs)
    (fuel : Nat) (rest : List Char) (enough : 3 * cs.length + 1 ≤ fuel) :
    readItem fuel (skipBlanks (cs ++ ']' :: rest)) = (items, none, some rest) := by
  obtain ⟨fuel, rfl⟩ : ∃ f, fuel = f + 1 := ⟨fuel - 1, by omega⟩
  cases spelled with
  | @last d before cs after blankBefore value blankAfter =>
      have one := one_le_of_spells value
      simp only [List.length_append] at enough
      obtain ⟨fuel, rfl⟩ : ∃ f, fuel = f + 1 := ⟨fuel - 1, by omega⟩
      have apart := apart_append blankAfter (apart_cons (.inr (.inl rfl)) rest)
      have read := readValue_of_spells value (fuel + 1) (by omega) apart
      rw [List.append_assoc, List.append_assoc, skipBlanks_value blankBefore value,
        readItem_value read, readItems_close blankAfter]
  | @more d items before cs after more blankBefore value blankAfter others =>
      have one := one_le_of_spells value
      simp only [List.length_append, List.length_cons] at enough
      obtain ⟨fuel, rfl⟩ : ∃ f, fuel = f + 1 := ⟨fuel - 1, by omega⟩
      have apart := apart_append blankAfter (apart_cons (.inl rfl) (more ++ ']' :: rest))
      have read := readValue_of_spells value (fuel + 1) (by omega) apart
      obtain ⟨c, r, front, first⟩ := front_of_spellsItems others (']' :: rest)
      have tail := readItem_of_spells others fuel rest (by omega)
      rw [List.append_assoc, List.append_assoc, List.append_assoc, List.cons_append,
        skipBlanks_value blankBefore value, readItem_value read,
        readItems_comma blankAfter front first, tail]
termination_by 2 * cs.length + 1
decreasing_by
  all_goals subst_vars; simp only [List.length_append, List.length_cons]; omega

theorem readMember_of_spells {members : List (Token String × Doc)} {cs : List Char}
    (spelled : SpellsMembers members cs) (fuel : Nat) (rest : List Char)
    (enough : 3 * cs.length + 1 ≤ fuel) :
    readMember fuel (skipBlanks (cs ++ '}' :: rest)) = (members, none, some rest) := by
  obtain ⟨fuel, rfl⟩ : ∃ f, fuel = f + 1 := ⟨fuel - 1, by omega⟩
  cases spelled with
  | @last key d before name between blank cs after blankBefore named blankBetween blankMore value
      blankAfter =>
      have one := one_le_of_spells value
      simp only [List.length_append, List.length_cons] at enough
      obtain ⟨fuel, rfl⟩ : ∃ f, fuel = f + 1 := ⟨fuel - 1, by omega⟩
      have apart := apart_append blankAfter (apart_cons (.inr (.inr rfl)) rest)
      have read := readValue_of_spells value (fuel + 1) (by omega) apart
      rw [← readValue_blank blankMore] at read
      simp only [List.append_assoc, List.cons_append]
      rw [skipBlanks_name blankBefore named, readMember_key named blankBetween read,
        readMembers_close blankAfter]
  | @more key d members before name between blank cs after more blankBefore named blankBetween
      blankMore value blankAfter others =>
      have one := one_le_of_spells value
      simp only [List.length_append, List.length_cons] at enough
      obtain ⟨fuel, rfl⟩ : ∃ f, fuel = f + 1 := ⟨fuel - 1, by omega⟩
      have apart := apart_append blankAfter (apart_cons (.inl rfl) (more ++ '}' :: rest))
      have read := readValue_of_spells value (fuel + 1) (by omega) apart
      rw [← readValue_blank blankMore] at read
      obtain ⟨r, front⟩ := front_of_spellsMembers others ('}' :: rest)
      have tail := readMember_of_spells others fuel rest (by omega)
      simp only [List.append_assoc, List.cons_append]
      rw [skipBlanks_name blankBefore named, readMember_key named blankBetween read,
        readMembers_comma blankAfter front, tail]
termination_by 2 * cs.length + 1
decreasing_by
  all_goals subst_vars; simp only [List.length_append, List.length_cons]; omega

end

/-- Every spelling of a document has that document for its outline. -/
theorem outline_of_spells {d : Doc} {s : String} (spelled : SpellsText d s) :
    outline s = ⟨d, true⟩ := by
  obtain ⟨before, cs, after, blankBefore, value, blankAfter, text⟩ := spelled
  have apart : Apart after := by
    have ends : Apart [] := fun c r none => nomatch none
    simpa using apart_append blankAfter ends
  have read := readValue_of_spells value (3 * s.toList.length + 3) (by simp [text]; omega) apart
  have blank : skipBlanks after = [] := by
    simpa [skipBlanks] using skipBlanks_append blankAfter []
  rw [← readValue_blank blankBefore, ← text] at read
  simp only [outline, read, blank, List.isEmpty_nil]

end RunControl.Json
