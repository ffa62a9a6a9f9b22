import RunControl.Proofs.HostEnvironment.Exports

/-!
What stands before the declarations of a listing.

A text in which no line begins like a declaration is a piece of its own. It is not read as nothing:
where there is an equals sign in it, it gives a variable, whose name begins with the line end that
is put before every listing (`strayName`). Variables of other names are those of the declarations
(`parse_after_preamble`).
-/

namespace RunControl.HostEnvironment.Exports

variable {c : Char} {word before after s : List Char} {front listing : String}

/-! ### Lines -/

/-- The lines of a text. -/
def lines (s : List Char) : List (List Char) :=
  Text.pieces ['\n'] (List.cons_ne_nil _ _) s

/-- What begins with a character does not begin in a text without it. -/
theorem infix_append_iff_of_notMem (absent : c ∉ before) :
    c :: word <:+: before ++ after ↔ c :: word <:+: after := by
  induction before with
  | nil => rfl
  | cons b before ih =>
      have other : c ≠ b := fun same => absent (same ▸ List.mem_cons_self)
      rw [List.cons_append, List.infix_cons_iff, List.cons_prefix_cons,
        ih fun member => absent (.tail _ member)]
      simp [other]

/-- What begins a text and does not have a character ends before it. -/
theorem prefix_append_cons_iff_of_notMem (absent : c ∉ word) :
    word <+: before ++ c :: after ↔ word <+: before := by
  constructor
  · intro begins
    rcases List.prefix_or_prefix_of_prefix begins (List.prefix_append before _) with
      whole | ⟨more, rfl⟩
    · exact whole
    · rcases List.prefix_cons_iff.mp ((List.prefix_append_right_inj before).mp begins) with
        rfl | ⟨rest, rfl, -⟩
      · rw [List.append_nil]
      · exact absurd (List.mem_append_right before List.mem_cons_self) absent
  · exact fun begins => begins.trans (List.prefix_append before _)

/-- A word stands behind a line end exactly if a line begins with it. -/
theorem infix_newline_iff (single : '\n' ∉ word) (s : List Char) :
    '\n' :: word <:+: '\n' :: s ↔ ∃ line ∈ lines s, word <+: line := by
  unfold lines
  fun_induction Text.pieces ['\n'] (List.cons_ne_nil _ _) s with
  | case1 s none =>
      have later : ¬ '\n' :: word <:+: s := fun inside =>
        Text.cut?_char_eq_none_iff.mp none (inside.subset List.mem_cons_self)
      rw [List.infix_cons_iff, List.cons_prefix_cons]
      simp [later]
  | case2 s before after cut ih =>
      have absent : '\n' ∉ before := by
        rw [← List.singleton_infix_iff]
        exact Text.not_infix_of_cut? (List.cons_ne_nil _ _) cut
      have parts : s = before ++ '\n' :: after := by simpa using Text.cut?_append cut
      rw [List.infix_cons_iff, List.cons_prefix_cons, parts, infix_append_iff_of_notMem absent, ih,
        prefix_append_cons_iff_of_notMem single]
      simp

/-- No line of a text begins like a declaration. -/
def Undeclared (text : String) : Prop :=
  ∀ line ∈ lines text.toList, ¬ start <+: line

/-- Such a text is one piece. -/
theorem listingPieces_of_undeclared (undeclared : Undeclared front) :
    listingPieces front.toList = ['\n' :: front.toList] := by
  refine Text.pieces_of_none ((Text.cut?_eq_none_iff separator_ne_nil).mpr fun declares => ?_)
  obtain ⟨line, member, begins⟩ := (infix_newline_iff newline_notMem_start _).mp declares
  exact undeclared line member begins

/-! ### The stray variable -/

/-- The name of the variable that a text before the declarations can give: a line end and what
stands before the first equals sign. -/
def strayName (front : String) : String :=
  .ofList ('\n' :: front.toList.takeWhile (· ≠ '='))

/-- The line end that is taken off stands behind every other character. -/
theorem chomp_append_cons (different : c ≠ '\n') :
    chomp (before ++ c :: after) = before ++ c :: chomp after := by
  unfold chomp
  cases after with
  | nil => simp [different]
  | cons a after =>
      rw [List.getLast?_append_of_ne_nil _ (List.cons_ne_nil _ _), List.getLast?_cons_cons]
      split
      · rw [List.dropLast_append_of_ne_nil (List.cons_ne_nil _ _)]
        rfl
      · rfl

/-- A piece without an equals sign gives no variable. -/
theorem declared?_of_notMem (absent : '=' ∉ s) : declared? s = none := by
  have none : Text.cut? ['='] (chomp s) = none :=
    Text.cut?_char_eq_none_iff.mpr fun member => absent ((chomp_isPrefix s).subset member)
  rw [declared?, none]
  rfl

/-- A text with an equals sign gives the variable whose name stands before it. -/
theorem declared?_of_mem (there : '=' ∈ front.toList) :
    ∃ value, declared? ('\n' :: front.toList) = some (strayName front, value) := by
  obtain ⟨before, after, parts, absent⟩ := List.eq_append_cons_of_mem there
  have unseen : '=' ∉ '\n' :: before := by simpa using absent
  have name : front.toList.takeWhile (· ≠ '=') = before := by
    have others : ∀ c ∈ before, (decide (c ≠ '=')) = true := fun c member =>
      decide_eq_true fun same => absent (same ▸ member)
    rw [parts, List.takeWhile_append_of_pos others]
    simp
  refine ⟨.ofList (unquote (chomp after)), ?_⟩
  rw [declared?, strayName, name, parts, ← List.cons_append, chomp_append_cons (by decide),
    Text.cut?_char unseen]
  rfl

/-- What a text without declarations gives by itself. -/
theorem parse_of_undeclared (undeclared : Undeclared front) :
    parse front = .ofList (declared? ('\n' :: front.toList)).toList := by
  rw [parse, listingPieces_of_undeclared undeclared]
  cases given : declared? ('\n' :: front.toList) with
  | none => rw [List.filterMap_cons_none given, List.filterMap_nil, Option.toList_none]
  | some pair => rw [List.filterMap_cons_some given, List.filterMap_nil, Option.toList_some]

theorem keys_parse_of_undeclared (undeclared : Undeclared front) :
    (parse front).keys = if '=' ∈ front.toList then [strayName front] else [] := by
  rw [parse_of_undeclared undeclared]
  split
  · rename_i there
    obtain ⟨value, given⟩ := declared?_of_mem there
    rw [given]
    rfl
  · rename_i absent
    rw [declared?_of_notMem (by simpa using absent)]
    rfl

/-! ### Before declarations -/

/-- How a text without declarations is read, by itself and before a listing. -/
structure Preamble (front listing : String) : Prop where
  /-- By itself it gives one variable if there is an equals sign in it, and else none. -/
  alone : (parse front).keys = if '=' ∈ front.toList then [strayName front] else []
  /-- Before a listing it gives this variable too, unless the listing has one of the name. -/
  before : ∀ key, (parse (front ++ "\n" ++ listing)).get? key =
    ((parse listing).get? key).or ((parse front).get? key)
  /-- So the variables whose names do not begin with a line end are those of the listing. -/
  kept : ∀ key, key.toList.head? ≠ some '\n' →
    (parse front).get? key = none ∧
      (parse (front ++ "\n" ++ listing)).get? key = (parse listing).get? key
  /-- It is read as nothing exactly if there is no equals sign in it, or if the listing has a
  variable of the name. -/
  silent_iff : parse (front ++ "\n" ++ listing) = parse listing ↔
    '=' ∉ front.toList ∨ (parse listing).contains (strayName front) = true

/-- Whatever stands before the declarations of a listing, as long as none of its lines begins like
a declaration: it gives a variable exactly if there is an equals sign in it, and changes none that
the listing has. -/
theorem parse_after_preamble (front listing : String) (undeclared : Undeclared front)
    (declares : Declares listing) : Preamble front listing := by
  have alone := keys_parse_of_undeclared undeclared
  have before : ∀ key, (parse (front ++ "\n" ++ listing)).get? key =
      ((parse listing).get? key).or ((parse front).get? key) := get?_parse_append declares
  have given (key : String) : (parse front).get? key ≠ none ↔
      '=' ∈ front.toList ∧ key = strayName front := by
    rw [Option.ne_none_iff_exists', ← Table.mem_keys_iff, alone]
    split <;> simp [*]
  constructor
  case alone => exact alone
  case before => exact before
  case kept =>
    intro key named
    have none : (parse front).get? key = none := by
      by_contra stray
      obtain ⟨-, rfl⟩ := (given key).mp stray
      exact named (by simp [strayName])
    exact ⟨none, by rw [before, none, Option.or_none]⟩
  case silent_iff =>
    constructor
    · intro same
      by_contra! stray
      obtain ⟨there, absent⟩ := stray
      have found := (given (strayName front)).mpr ⟨there, rfl⟩
      have unlisted : (parse listing).get? (strayName front) = none := by
        simpa [Table.contains] using absent
      have shown := before (strayName front)
      rw [same, unlisted, Option.none_or] at shown
      exact found shown.symm
    · intro silent
      ext key
      rw [before]
      by_cases stray : (parse front).get? key = none
      · rw [stray, Option.or_none]
      · obtain ⟨there, rfl⟩ := (given key).mp stray
        obtain ⟨value, found⟩ := Table.contains_eq_true_iff.mp (silent.resolve_left (· there))
        rw [found, Option.some_or]

/-- A greeting of several lines, one of them blank, in which there is an equals sign. -/
theorem parse_after_preamble_greeting :
    let front := "Welcome to np04\n\nload=0.5\n"
    let listing := "declare -x A=\"1\"\ndeclare -x B\n"
    Undeclared front ∧ Declares listing ∧ Preamble front listing ∧
      (parse (front ++ "\n" ++ listing)).entries =
        [("\nWelcome to np04\n\nload", "0.5"), ("A", "1")] := by
  intro front listing
  have undeclared : Undeclared front := by
    unfold Undeclared
    decide +kernel
  have declares : Declares listing := by
    unfold Declares
    decide +kernel
  exact ⟨undeclared, declares, parse_after_preamble front listing undeclared declares,
    by decide +kernel⟩

/-- A line with an equals sign before a declaration is taken for a variable, and so it is where
there is no declaration. -/
theorem stray_variable :
    Undeclared "A=1" ∧ Declares "declare -x B=2" ∧
      parse ("A=1" ++ "\n" ++ "declare -x B=2") ≠ parse "declare -x B=2" ∧
      parse "A=1" = .ofList [("\nA", "1")] := by
  have undeclared : Undeclared "A=1" := by
    unfold Undeclared
    decide +kernel
  have declares : Declares "declare -x B=2" := by
    unfold Declares
    decide +kernel
  exact ⟨undeclared, declares, by decide +kernel, by decide +kernel⟩

end RunControl.HostEnvironment.Exports
