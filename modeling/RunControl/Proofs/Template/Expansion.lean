import RunControl.Proofs.Text.Cut
import RunControl.Template

/-!
Placeholders replaced in one walk over a template.

`Scanned` walks over a text one character at a time, without a search for what comes next: where a
placeholder with a value begins it gives the value and goes on behind it, and every other character
is copied. This is what `substitute` does (`substitute_scans`), though it goes from one opening to
the next. So a template that is put together of literals and placeholders is replaced piece by
piece, whatever the values hold.
-/

namespace RunControl.Template

variable {vars : Table String} {c : Char} {s r key behind out : List Char} {k value : String}

/-! ### Where placeholders begin -/

/-- `Begins s key behind`: the text `s` begins with the placeholder of a key, and goes on with
`behind`. The key reaches up to the first closing. -/
structure Begins (s key behind : List Char) : Prop where
  parts : s = opening ++ key ++ closing ++ behind
  first : ¬ closing <:+: key

theorem begins_iff_cut? :
    Begins ('%' :: '(' :: r) key behind ↔ Text.cut? closing r = some (key, behind) := by
  constructor
  · rintro ⟨parts, first⟩
    obtain rfl : r = key ++ (closing ++ behind) := by
      simpa [opening, List.append_assoc] using parts
    have none : Text.cut? closing key = none := (Text.cut?_eq_none_iff closing_ne_nil).mpr first
    exact Text.cut?_append_of_none (by decide) none
  · intro cut
    exact ⟨by rw [Text.cut?_append cut]; simp [opening], Text.not_infix_of_cut? closing_ne_nil cut⟩

theorem Begins.opens (begins : Begins s key behind) : opening <+: s := by
  rw [begins.parts, List.append_assoc, List.append_assoc]
  exact List.prefix_append _ _

/-- A text that is opened begins with a percent sign and a parenthesis. -/
theorem eq_of_opens (opens : opening <+: s) : ∃ r, s = '%' :: '(' :: r := by
  obtain ⟨r, rfl⟩ := opens
  exact ⟨r, rfl⟩

theorem atPlaceholder?_eq_some_iff {shown : List Char} :
    atPlaceholder? vars s = some (shown, behind) ↔
      ∃ key value, Begins s key behind ∧ vars.get? (String.ofList key) = some value ∧
        shown = value.toList := by
  constructor
  · intro found
    unfold atPlaceholder? at found
    split at found
    · rename_i r
      simp only [Option.bind_eq_bind, Option.bind_eq_some_iff, Option.some.injEq,
        Prod.mk.injEq] at found
      obtain ⟨⟨key, rest⟩, cut, value, known, rfl, rfl⟩ := found
      exact ⟨key, value, begins_iff_cut?.mpr cut, known, rfl⟩
    · cases found
  · rintro ⟨key, value, begins, known, rfl⟩
    obtain ⟨r, rfl⟩ := eq_of_opens begins.opens
    simp [atPlaceholder?, begins_iff_cut?.mp begins, known]

/-- No placeholder with a value begins a text exactly if no key that stands there has one. -/
theorem atPlaceholder?_eq_none_iff :
    atPlaceholder? vars s = none ↔
      ∀ key behind, Begins s key behind → vars.get? (String.ofList key) = none := by
  rw [Option.eq_none_iff_forall_not_mem]
  constructor
  · intro none key behind begins
    rw [Option.eq_none_iff_forall_not_mem]
    intro value known
    exact none (value.toList, behind)
      (atPlaceholder?_eq_some_iff.mpr ⟨key, value, begins, known, rfl⟩)
  · rintro none ⟨shown, behind⟩ found
    obtain ⟨key, value, begins, known, -⟩ := atPlaceholder?_eq_some_iff.mp found
    exact nomatch known.symm.trans (none key behind begins)

/-! ### Walking over a text -/

theorem expand_nil : expand vars [] = [] := by
  rw [expand]
  rfl

theorem expand_of_some {shown : List Char} (found : atPlaceholder? vars s = some (shown, behind)) :
    expand vars s = shown ++ expand vars behind := by
  rw [expand]
  split
  · rename_i same
    cases same.symm.trans found
    rfl
  · rename_i none
    cases none.symm.trans found

theorem expand_of_none (none : atPlaceholder? vars (c :: r) = none) :
    expand vars (c :: r) = c :: expand vars r := by
  rw [expand]
  split
  · rename_i found
    cases found.symm.trans none
  · rfl

/-- A character that opens nothing is copied. -/
theorem expand_copy (closed : ¬ opening <+: c :: r) : expand vars (c :: r) = c :: expand vars r :=
  expand_of_none <| atPlaceholder?_eq_none_iff.mpr fun _ _ begins => absurd begins.opens closed

theorem expand_copy_ne (other : c ≠ '%') : expand vars (c :: r) = c :: expand vars r :=
  expand_copy fun opens => other (List.cons_prefix_cons.mp opens).1.symm

/-- An opening that belongs to no placeholder with a value is copied. -/
theorem expand_opening (none : atPlaceholder? vars (opening ++ r) = none) :
    expand vars (opening ++ r) = opening ++ expand vars r :=
  (expand_of_none none).trans (congrArg _ (expand_copy_ne (by decide)))

/-- A text without openings is copied. What follows it must not complete one. -/
theorem expand_literal (plain : ¬ opening <:+: s) (apart : r.head? ≠ some '(') :
    expand vars (s ++ r) = s ++ expand vars r := by
  induction s with
  | nil => rfl
  | cons c s ih =>
      have closed : ¬ opening <+: c :: (s ++ r) := by
        intro opens
        obtain ⟨rest, same⟩ := eq_of_opens opens
        obtain ⟨rfl, next⟩ := List.cons.inj same
        cases s with
        | nil =>
            obtain rfl : r = '(' :: rest := next
            exact apart rfl
        | cons d s =>
            obtain ⟨rfl, -⟩ := List.cons.inj next
            exact plain ⟨[], s, rfl⟩
      rw [List.cons_append, expand_copy closed, ih fun further => plain (List.infix_cons further)]
      rfl

theorem expand_plain (plain : ¬ opening <:+: s) : expand vars s = s := by
  have whole : expand vars (s ++ []) = s ++ expand vars [] := expand_literal plain nofun
  rwa [List.append_nil, expand_nil, List.append_nil] at whole

/-- A placeholder with a value gives way to it. -/
theorem expand_known (first : ¬ closing <:+: key)
    (known : vars.get? (String.ofList key) = some value) :
    expand vars (opening ++ key ++ closing ++ r) = value.toList ++ expand vars r :=
  expand_of_some <| atPlaceholder?_eq_some_iff.mpr ⟨key, value, ⟨rfl, first⟩, known, rfl⟩

/-- A placeholder without a value stays. -/
theorem expand_unknown (plain : ¬ opening <:+: key) (first : ¬ closing <:+: key)
    (unknown : vars.get? (String.ofList key) = none) :
    expand vars (opening ++ key ++ closing ++ r) = opening ++ key ++ closing ++ expand vars r := by
  have begins : Begins (opening ++ (key ++ (closing ++ r))) key r := ⟨by simp, first⟩
  have none : atPlaceholder? vars (opening ++ (key ++ (closing ++ r))) = none := by
    rw [atPlaceholder?_eq_none_iff]
    intro key' behind begins'
    cases (begins_iff_cut?.mp begins).symm.trans (begins_iff_cut?.mp begins')
    exact unknown
  have closed : expand vars (closing ++ r) = closing ++ expand vars r :=
    (expand_copy_ne (by decide)).trans (congrArg _ (expand_copy_ne (by decide)))
  rw [List.append_assoc, List.append_assoc, expand_opening none,
    expand_literal plain (by simp [closing]), closed]
  simp

/-! ### From one opening to the next -/

/-- The search for the next opening passes over a text without openings. -/
theorem expand_before {before after : List Char}
    (cut : Text.cut? opening s = some (before, after)) :
    expand vars s = before ++ expand vars (opening ++ after) := by
  rw [Text.cut?_append cut, List.append_assoc]
  exact expand_literal (Text.not_infix_of_cut? opening_ne_nil cut) (by simp [opening])

theorem replace_eq_expand (vars : Table String) (s : List Char) :
    replace vars s = expand vars s := by
  fun_induction replace vars s with
  | case1 s none => exact (expand_plain ((Text.cut?_eq_none_iff opening_ne_nil).mp none)).symm
  | case2 s before after cut unclosed ih =>
      have stays : atPlaceholder? vars (opening ++ after) = none := by
        rw [atPlaceholder?_eq_none_iff]
        intro key behind begins
        cases unclosed.symm.trans (begins_iff_cut?.mp begins)
      rw [expand_before cut, expand_opening stays, ih, List.append_assoc]
  | case3 s before after cut key behind cut' value known ih =>
      obtain ⟨parts, first⟩ := begins_iff_cut?.mpr cut'
      rw [expand_before cut, show opening ++ after = _ from parts, expand_known first known, ih,
        List.append_assoc]
  | case4 s before after cut key behind cut' unknown ih =>
      have stays : atPlaceholder? vars (opening ++ after) = none := by
        rw [atPlaceholder?_eq_none_iff]
        intro key behind begins
        cases cut'.symm.trans (begins_iff_cut?.mp begins)
        exact unknown
      rw [expand_before cut, expand_opening stays, ih, List.append_assoc]

/-- Without values everything stays. -/
theorem expand_of_isEmpty (empty : vars.isEmpty = true) (s : List Char) : expand vars s = s := by
  have unknown (key : String) : vars.get? key = none := by
    unfold Table.get?
    rw [List.isEmpty_iff.mp empty]
    rfl
  induction s with
  | nil => exact expand_nil
  | cons c s ih =>
      rw [expand_of_none (atPlaceholder?_eq_none_iff.mpr fun _ _ _ => unknown _), ih]

theorem substitute_eq_expand (vars : Table String) (template : String) :
    substitute vars template = String.ofList (expand vars template.toList) := by
  unfold substitute
  split
  · rename_i empty
    rw [expand_of_isEmpty empty, String.ofList_toList]
  · rw [replace_eq_expand]

/-! ### One character at a time -/

/-- `Scanned vars s out`: a walk from left to right over `s` gives `out`. -/
inductive Scanned (vars : Table String) : List Char → List Char → Prop where
  | done : Scanned vars [] []
  /-- A placeholder with a value gives way to it. The value is not walked over. -/
  | value {s key behind out : List Char} {value : String} (begins : Begins s key behind)
      (known : vars.get? (String.ofList key) = some value) :
      Scanned vars behind out → Scanned vars s (value.toList ++ out)
  /-- Where no placeholder with a value begins, one character is copied. -/
  | copy {c : Char} {r out : List Char}
      (unknown : ∀ key behind, Begins (c :: r) key behind → vars.get? (String.ofList key) = none) :
      Scanned vars r out → Scanned vars (c :: r) (c :: out)

theorem scanned_iff : Scanned vars s out ↔ out = expand vars s := by
  constructor
  · intro scanned
    induction scanned with
    | done => exact expand_nil.symm
    | value begins known _ ih =>
        rw [expand_of_some (atPlaceholder?_eq_some_iff.mpr ⟨_, _, begins, known, rfl⟩), ih]
    | copy unknown _ ih => rw [expand_of_none (atPlaceholder?_eq_none_iff.mpr unknown), ih]
  · rintro rfl
    fun_induction expand vars s with
    | case1 s shown behind found ih =>
        obtain ⟨key, value, begins, known, rfl⟩ := atPlaceholder?_eq_some_iff.mp found
        exact .value begins known ih
    | case2 => exact .done
    | case3 c r none ih => exact .copy (atPlaceholder?_eq_none_iff.mp none) ih

/-! ### Texts that are replaced apart -/

/-- A text that ends between placeholders: what follows it is replaced on its own. -/
def Parted (s : String) : Prop :=
  ∀ vars rest, substitute vars (s ++ rest) = substitute vars s ++ substitute vars rest

theorem toList_substitute (vars : Table String) (s : String) :
    (substitute vars s).toList = expand vars s.toList := by
  rw [substitute_eq_expand, String.toList_ofList]

theorem parted_iff {s : String} :
    Parted s ↔ ∀ vars r, expand vars (s.toList ++ r) = expand vars s.toList ++ expand vars r := by
  constructor
  · intro parted vars r
    have apart := congrArg String.toList (parted vars (.ofList r))
    simpa [toList_substitute] using apart
  · intro apart vars rest
    rw [← String.toList_inj]
    simpa [toList_substitute] using apart vars rest.toList

theorem Parted.append {s t : String} (first : Parted s) (second : Parted t) : Parted (s ++ t) := by
  intro vars rest
  rw [String.append_assoc, first, second, first, String.append_assoc]

/-- Without a percent sign nothing is replaced. -/
theorem expand_append_of_notMem (plain : '%' ∉ s) : expand vars (s ++ r) = s ++ expand vars r := by
  induction s with
  | nil => rfl
  | cons c s ih =>
      have other : c ≠ '%' := fun same => plain (same ▸ List.mem_cons_self)
      rw [List.cons_append, expand_copy_ne other, ih fun member => plain (.tail _ member)]
      rfl

theorem expand_of_notMem (plain : '%' ∉ s) : expand vars s = s := by
  have whole : expand vars (s ++ []) = s ++ expand vars [] := expand_append_of_notMem plain
  rwa [List.append_nil, expand_nil, List.append_nil] at whole

theorem substitute_of_notMem {s : String} (plain : '%' ∉ s.toList) : substitute vars s = s := by
  rw [← String.toList_inj, toList_substitute, expand_of_notMem plain]

theorem parted_of_notMem {s : String} (plain : '%' ∉ s.toList) : Parted s := by
  rw [parted_iff]
  intro vars r
  rw [expand_append_of_notMem plain, expand_of_notMem plain]

theorem toList_placeholder (key : String) :
    (placeholder key).toList = opening ++ key.toList ++ closing := by
  simp [placeholder, opening, closing, String.toList_append]

/-- A placeholder is replaced by itself if it has no value. -/
theorem expand_placeholder {key : String} (unopened : ¬ opening <:+: key.toList)
    (unclosed : ¬ closing <:+: key.toList) (vars : Table String) (r : List Char) :
    expand vars ((placeholder key).toList ++ r) =
      ((vars.get? key).getD (placeholder key)).toList ++ expand vars r := by
  rw [toList_placeholder]
  cases found : vars.get? key with
  | some value => exact expand_known unclosed (by rwa [String.ofList_toList])
  | none =>
      rw [expand_unknown unopened unclosed (by rwa [String.ofList_toList]), Option.getD_none,
        toList_placeholder]

theorem parted_placeholder {key : String} (unopened : ¬ opening <:+: key.toList)
    (unclosed : ¬ closing <:+: key.toList) : Parted (placeholder key) := by
  rw [parted_iff]
  intro vars r
  have alone := expand_placeholder unopened unclosed vars []
  rw [List.append_nil, expand_nil, List.append_nil] at alone
  rw [expand_placeholder unopened unclosed, alone]

/-! ### Pieces of templates -/

/-- A piece of a template. -/
inductive Piece where
  | literal (text : String)
  | placeholder (key : String)
  deriving DecidableEq, Repr

/-- The piece as it stands in the template. -/
def Piece.text : Piece → String
  | .literal text => text
  | .placeholder key => Template.placeholder key

/-- What is shown of the piece: a placeholder gives way to its value, if there is one. -/
def Piece.shown (vars : Table String) : Piece → String
  | .literal text => text
  | .placeholder key => (vars.get? key).getD (Template.placeholder key)

/-- Pieces whose bounds a walk over the template keeps to. -/
structure Distinct (pieces : List Piece) : Prop where
  /-- A key holds neither end of a placeholder. -/
  keys : ∀ key, .placeholder key ∈ pieces →
    ¬ opening <:+: key.toList ∧ ¬ closing <:+: key.toList
  /-- Literals that stand side by side do not make an opening. -/
  runs : ∀ texts : List String, texts.map .literal <:+: pieces →
    ¬ opening <:+: (String.join texts).toList

theorem Distinct.tail {piece : Piece} {pieces before : List Piece}
    (distinct : Distinct (before ++ piece :: pieces)) : Distinct pieces where
  keys key member := distinct.keys key (by simp [member])
  runs texts run := distinct.runs texts (run.trans ⟨before ++ [piece], [], by simp⟩)

/-- The walk goes piece by piece. The induction gathers the literals that stand side by side until
a placeholder or the end comes. -/
theorem expand_pieces {pieces : List Piece} (texts : List String)
    (distinct : Distinct (texts.map .literal ++ pieces)) :
    expand vars ((String.join texts).toList ++ (String.join (pieces.map Piece.text)).toList) =
      (String.join texts).toList ++ (String.join (pieces.map (Piece.shown vars))).toList := by
  have plain : ¬ opening <:+: (String.join texts).toList :=
    distinct.runs texts (List.prefix_append _ _).isInfix
  induction pieces generalizing texts with
  | nil =>
      simp only [List.map_nil, String.join_nil, String.toList_empty, List.append_nil]
      exact expand_plain plain
  | cons piece pieces ih =>
      cases piece with
      | literal text =>
          have longer : Distinct ((texts ++ [text]).map .literal ++ pieces) := by
            simpa using distinct
          have gathered :=
            ih (texts ++ [text]) longer (longer.runs _ (List.prefix_append _ _).isInfix)
          simpa [Piece.text, Piece.shown] using gathered
      | placeholder key =>
          obtain ⟨unopened, unclosed⟩ := distinct.keys key (by simp)
          have others : expand vars (String.join (pieces.map Piece.text)).toList =
              (String.join (pieces.map (Piece.shown vars))).toList := by
            simpa using ih [] distinct.tail (by simp [opening])
          have apart (r : List Char) : ((placeholder key).toList ++ r).head? ≠ some '(' := by
            simp [toList_placeholder, opening]
          simp only [List.map_cons, String.join_cons, String.toList_append, Piece.text, Piece.shown]
          rw [expand_literal plain (apart _), expand_placeholder unopened unclosed, others]

/-- Replacing the placeholders of a template is one walk over it from left to right. In a template
that is put together of pieces, exactly the placeholders that have a value give way to it, and
nothing in a value is looked at again. -/
theorem substitute_scans (vars : Table String) :
    (∀ template shown, Scanned vars template.toList shown.toList ↔
      shown = substitute vars template) ∧
    ∀ pieces, Distinct pieces →
      substitute vars (String.join (pieces.map Piece.text)) =
        String.join (pieces.map (Piece.shown vars)) := by
  constructor
  · intro template shown
    rw [scanned_iff, substitute_eq_expand, ← String.toList_inj, String.toList_ofList]
  · intro pieces distinct
    rw [substitute_eq_expand, ← String.toList_inj, String.toList_ofList]
    simpa using expand_pieces [] distinct

/-- A placeholder in a value stays, and so does an opening before a placeholder without a value. -/
theorem substitute_scans_values :
    let vars : Table String := .ofList [("ENV_A", "%(ENV_B)s"), ("ENV_B", "b")]
    let pieces : List Piece :=
      [.literal "%", .placeholder "ENV_A", .literal ")s", .placeholder "x)", .placeholder "ENV_B"]
    Distinct pieces ∧
      substitute vars "%%(ENV_A)s)s%(x))s%(ENV_B)s" = "%%(ENV_B)s)s%(x))sb" := by
  intro vars pieces
  have distinct : Distinct pieces := by
    constructor
    case keys =>
      intro key member
      simp only [pieces, List.mem_cons, reduceCtorEq, Piece.placeholder.injEq, List.not_mem_nil,
        or_false, false_or] at member
      rcases member with rfl | rfl | rfl <;> decide
    case runs =>
      intro texts run
      have runs : (texts = [] ∨ texts = ["%"]) ∨ texts = [] ∨ (texts = [] ∨ texts = [")s"]) ∨
          texts = [] := by
        simpa [pieces, List.infix_cons_iff, List.prefix_cons_iff, List.map_eq_cons_iff] using run
      rcases runs with (rfl | rfl) | rfl | (rfl | rfl) | rfl <;> decide
  exact ⟨distinct, (substitute_scans vars).2 pieces distinct⟩

end RunControl.Template
