import RunControl.Proofs.HostEnvironment.Exports

/-!
Listings that the shell prints, read back.

A value is written with a backslash before each guarded character and read without it
(`unguard_guardChars`), and neither direction makes a separator where there was none
(`infix_of_guardChars`, `infix_of_unguard`). So no value that is read has a separator in it
(`not_startsDeclaration_of_parse`), and a rendered environment is read back exactly if none of its
values has (`parse_render_iff`).
-/

namespace RunControl.HostEnvironment.Exports

/-! ### Names and values -/

/-- Whether a text is a name that the shell can give to a variable. -/
def isIdentifier (name : String) : Bool :=
  match name.toList with
  | [] => false
  | c :: rest => (c.isAlpha || c = '_') && rest.all fun c => c.isAlphanum || c = '_'

/-- Whether a line of a value, other than its first, begins like a declaration. -/
def StartsDeclaration (value : String) : Prop :=
  "\ndeclare -x ".toList <:+: value.toList

instance (value : String) : Decidable (StartsDeclaration value) :=
  inferInstanceAs (Decidable (_ <:+: _))

/-- The name that a line declares. -/
def Declaration.name : Declaration → String
  | .assigned name _ => name
  | .bare name => name

variable {name value : String} {l v : List Char}

/-- No character of an identifier is an equals sign or ends a line. -/
theorem notMem_of_isIdentifier (identifier : isIdentifier name = true) :
    '=' ∉ name.toList ∧ '\n' ∉ name.toList := by
  have word : ∀ c ∈ name.toList, (c.isAlphanum || c = '_') = true := by
    unfold isIdentifier at identifier
    split at identifier
    · cases identifier
    · rename_i c rest same
      simp only [Bool.and_eq_true, Bool.or_eq_true, List.all_eq_true] at identifier
      rw [same]
      intro d member
      rcases List.mem_cons.mp member with rfl | member
      · rcases identifier.1 with letter | underscore
        · simp [Char.isAlphanum, letter]
        · simp [underscore]
      · simpa using identifier.2 d member
  constructor
  · intro member
    exact nomatch word _ member
  · intro member
    exact nomatch word _ member

/-! ### Guarded characters -/

/-- No character of a separator is guarded. -/
theorem isGuarded_separator : ∀ c ∈ separator, isGuarded c = false := by
  have none : separator.all (fun c => !isGuarded c) = true := by decide
  intro c member
  simpa using List.all_eq_true.mp none c member

/-- Without the backslashes before guarded characters a value is what it was. -/
theorem unguard_guardChars (v : List Char) : unguard (guardChars v) = v := by
  induction v with
  | nil => rfl
  | cons c v ih =>
      rw [guardChars, List.flatMap_cons]
      by_cases guarded : isGuarded c
      · rw [if_pos guarded]
        show unguard ('\\' :: c :: guardChars v) = c :: v
        rw [unguard, if_pos guarded, ih]
      · have other : c ≠ '\\' := by
          rintro rfl
          exact guarded rfl
        rw [if_neg guarded]
        show unguard (c :: guardChars v) = c :: v
        rw [unguard, ih]
        · exact fun same => absurd same other
        · exact fun _ _ same => absurd same other

/-- A text without guarded characters does not begin with one. -/
theorem eq_nil_of_guarded {c : Char} (plain : ∀ d ∈ l, isGuarded d = false)
    (guarded : isGuarded c = true) (begins : l <+: c :: v) : l = [] := by
  rcases List.prefix_cons_iff.mp begins with rfl | ⟨rest, rfl, -⟩
  · rfl
  · exact nomatch guarded.symm.trans (plain c List.mem_cons_self)

/-- What carries over to the texts behind a character carries over with it. -/
theorem prefix_cons_of_tail {c : Char} {w : List Char} (plain : ∀ d ∈ l, isGuarded d = false)
    (carries : ∀ {rest : List Char}, (∀ d ∈ rest, isGuarded d = false) → rest <+: v → rest <+: w)
    (begins : l <+: c :: v) : l <+: c :: w := by
  rcases List.prefix_cons_iff.mp begins with rfl | ⟨rest, rfl, further⟩
  · exact List.nil_prefix
  · rw [List.cons_prefix_cons]
    exact ⟨rfl, carries (fun d member => plain d (.tail _ member)) further⟩

/-- Guarding makes no text without guarded characters at the front of a value. -/
theorem prefix_of_guardChars (plain : ∀ c ∈ l, isGuarded c = false) (begins : l <+: guardChars v) :
    l <+: v := by
  induction v generalizing l with
  | nil => exact begins
  | cons c v ih =>
      rw [guardChars, List.flatMap_cons] at begins
      by_cases guarded : isGuarded c
      · rw [if_pos guarded] at begins
        rw [eq_nil_of_guarded plain rfl begins]
        exact List.nil_prefix
      · rw [if_neg guarded] at begins
        exact prefix_cons_of_tail plain ih begins

/-- Guarding makes no text without guarded characters in a value. -/
theorem infix_of_guardChars (plain : ∀ c ∈ l, isGuarded c = false)
    (occurs : l <:+: guardChars v) : l <:+: v := by
  induction v with
  | nil => exact occurs
  | cons c v ih =>
      rw [guardChars, List.flatMap_cons] at occurs
      by_cases guarded : isGuarded c
      · rw [if_pos guarded] at occurs
        -- An occurrence begins neither at the backslash nor at the character behind it.
        rcases List.infix_cons_iff.mp occurs with begins | occurs
        · rw [eq_nil_of_guarded plain rfl begins]
          exact List.nil_infix
        · rcases List.infix_cons_iff.mp occurs with begins | further
          · rw [eq_nil_of_guarded plain guarded begins]
            exact List.nil_infix
          · exact List.infix_cons (ih further)
      · rw [if_neg guarded] at occurs
        rcases List.infix_cons_iff.mp occurs with begins | further
        · exact (prefix_cons_of_tail plain prefix_of_guardChars begins).isInfix
        · exact List.infix_cons (ih further)

/-- Reading makes no text without guarded characters at the front of a value. -/
theorem prefix_of_unguard (plain : ∀ c ∈ l, isGuarded c = false) (begins : l <+: unguard v) :
    l <+: v := by
  fun_induction unguard v generalizing l with
  | case1 => exact begins
  | case2 => exact begins
  | case3 c rest guarded ih =>
      rw [eq_nil_of_guarded plain guarded begins]
      exact List.nil_prefix
  | case4 c rest unguarded ih =>
      rw [eq_nil_of_guarded plain rfl begins]
      exact List.nil_prefix
  | case5 c rest _ _ ih => exact prefix_cons_of_tail plain ih begins

/-- Reading makes no text without guarded characters in a value. -/
theorem infix_of_unguard (plain : ∀ c ∈ l, isGuarded c = false) (occurs : l <:+: unguard v) :
    l <:+: v := by
  fun_induction unguard v with
  | case1 => exact occurs
  | case2 => exact occurs
  | case3 c rest guarded ih =>
      rcases List.infix_cons_iff.mp occurs with begins | further
      · rw [eq_nil_of_guarded plain guarded begins]
        exact List.nil_infix
      · exact List.infix_cons (List.infix_cons (ih further))
  | case4 c rest unguarded ih =>
      rcases List.infix_cons_iff.mp occurs with begins | further
      · rw [eq_nil_of_guarded plain rfl begins]
        exact List.nil_infix
      · rcases List.infix_cons_iff.mp further with begins | further
        · exact List.infix_cons (prefix_cons_of_tail plain prefix_of_unguard begins).isInfix
        · exact List.infix_cons (List.infix_cons (ih further))
  | case5 c rest _ _ ih =>
      rcases List.infix_cons_iff.mp occurs with begins | further
      · exact (prefix_cons_of_tail plain prefix_of_unguard begins).isInfix
      · exact List.infix_cons (ih further)

/-! ### What is read -/

/-- What occurs in a value without its quotes occurs in it. -/
theorem infix_of_unquote (plain : ∀ c ∈ l, isGuarded c = false) (occurs : l <:+: unquote v) :
    l <:+: v := by
  have inner : v.tail.dropLast <:+: v :=
    (List.dropLast_prefix _).isInfix.trans (List.tail_suffix v).isInfix
  unfold unquote at occurs
  split at occurs
  · exact occurs
  · split at occurs
    · exact occurs.trans inner
    · split at occurs
      · exact (infix_of_unguard plain occurs).trans inner
      · exact occurs

/-- A value that a piece gives has no separator in it, as the piece has none. -/
theorem not_infix_of_declared? {piece : List Char} (whole : ¬ separator <:+: piece)
    (gives : declared? piece = some (name, value)) : ¬ separator <:+: value.toList := by
  intro occurs
  obtain ⟨⟨before, after⟩, cut, same⟩ := Option.bind_eq_some_iff.mp gives
  cases same
  rw [String.toList_ofList] at occurs
  have inside : after <:+: piece := by
    refine List.IsInfix.trans ?_ (chomp_isPrefix piece).isInfix
    rw [Text.cut?_append cut]
    exact (List.suffix_append _ _).isInfix
  exact whole ((infix_of_unquote isGuarded_separator occurs).trans inside)

/-- No value that is read from a listing has a line that begins like a declaration. -/
theorem not_startsDeclaration_of_parse {listing : String}
    (found : (parse listing).get? name = some value) : ¬ StartsDeclaration value := by
  obtain ⟨piece, member, gives⟩ := List.mem_filterMap.mp (Table.mem_of_get?_ofList found)
  exact not_infix_of_declared? (Text.not_infix_of_mem_pieces member) gives

/-! ### What is printed -/

/-- The line of a declaration without its start and its end. -/
def Declaration.body : Declaration → List Char
  | .assigned name value => name.toList ++ '=' :: '"' :: (guardChars value.toList ++ ['"'])
  | .bare name => name.toList

/-- What a declaration gives. -/
def Declaration.assignment? : Declaration → Option (String × String)
  | .assigned name value => some (name, value)
  | .bare _ => none

theorem line_eq (d : Declaration) : d.line = start ++ (d.body ++ ['\n']) := by
  cases d with
  | assigned name value => simp [Declaration.line, Declaration.body]
  | bare name => simp [Declaration.line, Declaration.body]

theorem assignments_eq (declarations : List Declaration) :
    assignments declarations = declarations.filterMap Declaration.assignment? := by
  unfold assignments
  congr 1

/-- A quoted and guarded value is read as it was. -/
theorem unquote_guarded (v : List Char) : unquote ('"' :: (guardChars v ++ ['"'])) = v := by
  have long : ¬ ('"' :: (guardChars v ++ ['"'])).length < 2 := by simp
  have single : isBetween '\'' ('"' :: (guardChars v ++ ['"'])) = false := rfl
  have double : isBetween '"' ('"' :: (guardChars v ++ ['"'])) = true := by
    simp [isBetween, List.getLast?_cons]
  rw [unquote, if_neg long, single, double, if_neg Bool.false_ne_true, if_pos rfl, List.tail_cons,
    List.dropLast_concat, unguard_guardChars]

/-- No declaration ends with a line end before the one that closes its line. -/
theorem getLast?_body {d : Declaration} (identifier : isIdentifier d.name = true) :
    d.body.getLast? ≠ some '\n' := by
  cases d with
  | assigned name value =>
      have quoted : (Declaration.assigned name value).body =
          (name.toList ++ '=' :: '"' :: guardChars value.toList) ++ ['"'] := by
        simp [Declaration.body]
      rw [quoted, List.getLast?_concat]
      decide
  | bare name =>
      exact fun last => (notMem_of_isIdentifier identifier).2 (List.mem_of_getLast? last)

/-- What does not end with a line end is not cut at its end. -/
theorem chomp_eq_self {s : List Char} (ended : s.getLast? ≠ some '\n') : chomp s = s :=
  if_neg (by simpa using ended)

theorem chomp_newline (s : List Char) : chomp (s ++ ['\n']) = s := by
  simp [chomp]

/-- A line gives what was declared in it. -/
theorem declared?_body {d : Declaration} (identifier : isIdentifier d.name = true) :
    declared? d.body = d.assignment? := by
  obtain ⟨unequal, -⟩ := notMem_of_isIdentifier identifier
  unfold declared?
  rw [chomp_eq_self (getLast?_body identifier)]
  cases d with
  | assigned name value =>
      have cut := Text.cut?_char unequal ('"' :: (guardChars value.toList ++ ['"']))
      rw [Declaration.name] at cut
      rw [Declaration.body, cut]
      simp [unquote_guarded, Declaration.assignment?]
  | bare name =>
      have none : Text.cut? ['='] name.toList = none := Text.cut?_char_eq_none_iff.mpr unequal
      rw [Declaration.body, none]
      rfl

/-- A declaration has a separator in it only if its value has. -/
theorem not_infix_body {d : Declaration} (identifier : isIdentifier d.name = true)
    (whole : ∀ name value, d = .assigned name value → ¬ StartsDeclaration value) :
    ¬ separator <:+: d.body := by
  have named : ¬ separator <:+: d.name.toList := fun occurs =>
    (notMem_of_isIdentifier identifier).2 (occurs.subset List.mem_cons_self)
  cases d with
  | bare name => exact named
  | assigned name value =>
      have unequal : '=' ∉ separator := by decide
      have unquoted : '"' ∉ separator := by decide
      intro occurs
      rcases Text.infix_of_notMem unequal occurs with inName | quoted
      · exact named inName
      · rcases Text.infix_of_notMem (s := []) unquoted quoted with empty | rest
        · exact separator_ne_nil (List.eq_nil_of_infix_nil empty)
        · rcases Text.infix_of_notMem unquoted rest with inValue | empty
          · exact whole name value rfl (infix_of_guardChars isGuarded_separator inValue)
          · exact separator_ne_nil (List.eq_nil_of_infix_nil empty)

theorem declared?_newline {s : List Char} (ended : s.getLast? ≠ some '\n') :
    declared? (s ++ ['\n']) = declared? s := by
  rw [declared?, chomp_newline, declared?, chomp_eq_self ended]

/-- No separator ends with a line end. -/
theorem not_infix_newline {s : List Char} (whole : ¬ separator <:+: s) :
    ¬ separator <:+: s ++ ['\n'] := by
  rw [List.infix_concat_iff]
  rintro (⟨front, same⟩ | inside)
  · have last := congrArg List.getLast? same
    rw [List.getLast?_concat, List.getLast?_append] at last
    exact nomatch last
  · exact whole inside

/-- What stands before rendered lines is read as if they were not there, and each line gives what
was declared in it. -/
theorem filterMap_pieces_lines {declarations : List Declaration}
    (identifiers : ∀ d ∈ declarations, isIdentifier d.name = true)
    (whole : ∀ d ∈ declarations, ¬ separator <:+: d.body) (front : List Char)
    (single : ¬ separator <:+: front) (ended : front.getLast? ≠ some '\n') :
    (Text.pieces separator separator_ne_nil
        (front ++ '\n' :: declarations.flatMap Declaration.line)).filterMap declared? =
      [front].filterMap declared? ++ declarations.filterMap Declaration.assignment? := by
  induction declarations generalizing front with
  | nil =>
      have closed := (Text.cut?_eq_none_iff separator_ne_nil).mpr (not_infix_newline single)
      rw [List.flatMap_nil, Text.pieces_of_none closed, List.filterMap_nil, List.append_nil,
        List.filterMap_cons, declared?_newline ended, ← List.filterMap_cons]
  | cons d declarations ih =>
      have alone := (Text.cut?_eq_none_iff separator_ne_nil).mpr single
      have rest := ih (fun e member => identifiers e (.tail _ member))
        (fun e member => whole e (.tail _ member)) d.body (whole d List.mem_cons_self)
        (getLast?_body (identifiers d List.mem_cons_self))
      have parts := Text.pieces_append newline_notMem_start separator_ne_nil front
        (d.body ++ '\n' :: declarations.flatMap Declaration.line)
      have own : [d.body].filterMap declared? = [d].filterMap Declaration.assignment? := by
        simp only [List.filterMap_cons, List.filterMap_nil,
          declared?_body (identifiers d List.mem_cons_self)]
      calc (Text.pieces separator separator_ne_nil
            (front ++ '\n' :: (d :: declarations).flatMap Declaration.line)).filterMap declared?
        _ = (Text.pieces separator separator_ne_nil front ++ Text.pieces separator separator_ne_nil
              (d.body ++ '\n' :: declarations.flatMap Declaration.line)).filterMap declared? := by
            rw [List.flatMap_cons, line_eq]
            refine congrArg _ (Eq.trans ?_ parts)
            simp [separator]
        _ = [front].filterMap declared? ++
              ([d].filterMap Declaration.assignment? ++
                declarations.filterMap Declaration.assignment?) := by
            rw [List.filterMap_append, rest, own, Text.pieces_of_none alone]
        _ = [front].filterMap declared? ++
              (d :: declarations).filterMap Declaration.assignment? := by
            rw [← List.filterMap_append, List.singleton_append]

/-- What is read from rendered declarations is what they assign, unless a value has a line that
begins like a declaration. -/
theorem parse_render {declarations : List Declaration}
    (identifiers : ∀ d ∈ declarations, isIdentifier d.name = true)
    (plain : ∀ e ∈ assignments declarations, ¬ StartsDeclaration e.2) :
    parse (render declarations) = .ofList (assignments declarations) := by
  have whole : ∀ d ∈ declarations, ¬ separator <:+: d.body := by
    intro d member
    apply not_infix_body (identifiers d member)
    rintro name value rfl
    refine plain (name, value) ?_
    rw [assignments_eq]
    exact List.mem_filterMap.mpr ⟨_, member, rfl⟩
  have lines := filterMap_pieces_lines identifiers whole []
    (fun empty => separator_ne_nil (List.eq_nil_of_infix_nil empty)) (by simp)
  rw [parse, listingPieces, render, String.toList_ofList, assignments_eq]
  exact congrArg Table.ofList lines

/-- For every environment of variables with shell names, in whatever order they are listed and
whatever variables without a value stand between them: the listing is read back exactly if no
value has a line, other than its first, that begins like a declaration. -/
theorem parse_render_iff (environment : Environment) (declarations : List Declaration)
    (identifiers : ∀ d ∈ declarations, isIdentifier d.name = true)
    (lists : (assignments declarations).Perm environment.entries) :
    parse (render declarations) = environment ↔
      ∀ name value, environment.get? name = some value → ¬ StartsDeclaration value := by
  constructor
  · rintro same name value found
    rw [← same] at found
    exact not_startsDeclaration_of_parse found
  · intro plain
    rw [parse_render identifiers, Table.ofList_eq_of_perm lists]
    rintro ⟨name, value⟩ member
    exact plain name value (Table.get?_eq_some_iff.mpr (lists.mem_iff.mp member))

/-- A value with such a line is cut there, and what follows is read as a variable of its own. -/
example : parse (render [.assigned "A" "1\ndeclare -x B=2"]) =
    .ofList [("A", "\"1"), ("B", "2\"")] := by
  decide +kernel

/-- Values of every kind that the shell prints, between two variables without one. -/
def printed : List Declaration :=
  [.bare "OLDPWD", .assigned "PS1" "\\u \x60a\x60 \"$\"\n", .assigned "A" "x=\ndeclare -x",
    .bare "_X"]

theorem parse_render_printed :
    (∀ d ∈ printed, isIdentifier d.name = true) ∧
      (assignments printed).Perm (Table.ofList (assignments printed)).entries ∧
      (parse (render printed) = .ofList (assignments printed) ↔
        ∀ name value, (Table.ofList (assignments printed)).get? name = some value →
          ¬ StartsDeclaration value) ∧
      parse (render printed) = .ofList (assignments printed) := by
  have identifiers : ∀ d ∈ printed, isIdentifier d.name = true := by decide
  have lists : (assignments printed).Perm (Table.ofList (assignments printed)).entries := by
    decide
  have both := parse_render_iff (.ofList (assignments printed)) printed identifiers lists
  refine ⟨identifiers, lists, both, both.mpr ?_⟩
  intro name value found
  have plain : ∀ e ∈ assignments printed, ¬ StartsDeclaration e.2 := by decide
  exact plain _ (Table.mem_of_get?_ofList found)

end RunControl.HostEnvironment.Exports
