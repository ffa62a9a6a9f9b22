import Mathlib.Data.List.Infix
import RunControl.Text.Cut

/-!
Pieces of texts that are put together.

A separator whose first character does not stand in it again never overlaps itself, so
cutting at it takes both sides of an occurrence apart independently (`pieces_append`). No
separator occurs in a piece (`not_infix_of_mem_pieces`).
-/

namespace RunControl.Text

variable {first c : Char} {others sep s t before after : List Char}

theorem pieces_of_none {nonempty : sep ≠ []} (none : cut? sep s = none) :
    pieces sep nonempty s = [s] := by
  rw [pieces]
  split
  · rfl
  · rename_i cut
    cases none.symm.trans cut

theorem pieces_of_some {nonempty : sep ≠ []} (cut : cut? sep s = some (before, after)) :
    pieces sep nonempty s = before :: pieces sep nonempty after := by
  rw [pieces]
  split
  · rename_i none
    cases none.symm.trans cut
  · rename_i same
    cases same.symm.trans cut
    rfl

/-- The first occurrence in a text is still the first when something follows the text. -/
theorem cut?_append_of_some (nonempty : sep ≠ []) (cut : cut? sep s = some (before, after)) :
    cut? sep (s ++ t) = some (before, after ++ t) := by
  induction s generalizing before with
  | nil => simp [cut?, nonempty] at cut
  | cons c s ih =>
      rw [cut?] at cut
      rw [List.cons_append, cut?]
      split at cut
      · rename_i here
        cases cut
        obtain ⟨rest, same⟩ := List.isPrefixOf_iff_prefix.mp here
        have still : sep.isPrefixOf (c :: (s ++ t)) = true := by
          rw [List.isPrefixOf_iff_prefix, ← List.cons_append, ← same, List.append_assoc]
          exact List.prefix_append _ _
        rw [if_pos still, ← List.cons_append, ← same]
        simp
      · rename_i later
        obtain ⟨⟨front, back⟩, tail, same⟩ := Option.map_eq_some_iff.mp cut
        cases same
        have short : sep.length ≤ (c :: s).length := by
          rw [cut?_append tail]
          simp only [List.length_cons, List.length_append]
          omega
        have still : ¬ sep.isPrefixOf (c :: (s ++ t)) = true := by
          rw [List.isPrefixOf_iff_prefix, ← List.cons_append]
          intro here
          refine later (List.isPrefixOf_iff_prefix.mpr ?_)
          exact List.prefix_of_prefix_length_le here (List.prefix_append _ _) short
        rw [if_neg still, ih tail]
        rfl

/-- In a text without the separator, a separator that does not overlap itself occurs first
where it is put behind the text. -/
theorem cut?_append_of_none (once : first ∉ others) (none : cut? (first :: others) s = none) :
    cut? (first :: others) (s ++ (first :: others ++ t)) = some (s, t) := by
  induction s with
  | nil => simp [cut?]
  | cons c s ih =>
      rw [cut?] at none
      split at none
      · cases none
      · rename_i absent
        have tail := ih (Option.map_eq_none_iff.mp none)
        have still : ¬ (first :: others).isPrefixOf (c :: s ++ (first :: others ++ t)) = true := by
          rw [List.isPrefixOf_iff_prefix]
          rintro ⟨rest, same⟩
          -- An occurrence at `c` lies in `c :: s`, or it reaches the first character behind it.
          rcases List.append_eq_append_iff.mp same with ⟨more, whole, -⟩ | ⟨more, longer, next⟩
          · exact absent (List.isPrefixOf_iff_prefix.mpr ⟨more, whole.symm⟩)
          · cases more with
            | nil =>
                rw [List.append_nil] at longer
                exact absent (List.isPrefixOf_iff_prefix.mpr (longer ▸ List.prefix_rfl))
            | cons d more =>
                obtain ⟨rfl, -⟩ := List.cons.inj next
                obtain ⟨-, rfl⟩ := List.cons.inj longer
                exact once (by simp)
        rw [List.cons_append, cut?, ← List.cons_append, if_neg still, tail]
        rfl

/-- A separator that does not overlap itself parts the pieces before it from those after it. -/
theorem pieces_append (once : first ∉ others) (nonempty : first :: others ≠ [])
    (s t : List Char) :
    pieces (first :: others) nonempty (s ++ (first :: others ++ t)) =
      pieces (first :: others) nonempty s ++ pieces (first :: others) nonempty t := by
  fun_induction pieces (first :: others) nonempty s with
  | case1 s none =>
      rw [pieces_of_some (cut?_append_of_none once none)]
      rfl
  | case2 s before after cut ih =>
      rw [pieces_of_some (cut?_append_of_some nonempty cut), ih]
      rfl

/-! ### Occurrences -/

/-- A text is cut unless the separator does not occur in it. -/
theorem cut?_eq_none_iff (nonempty : sep ≠ []) : cut? sep s = none ↔ ¬ sep <:+: s := by
  induction s with
  | nil => simp [cut?, nonempty]
  | cons c s ih =>
      rw [cut?, List.infix_cons_iff]
      by_cases here : sep <+: c :: s
      · simp [List.isPrefixOf_iff_prefix.mpr here, here]
      · rw [if_neg (mt List.isPrefixOf_iff_prefix.mp here), Option.map_eq_none_iff, ih]
        simp [here]

/-- Before the first occurrence there is none. -/
theorem not_infix_of_cut? (nonempty : sep ≠ []) (cut : cut? sep s = some (before, after)) :
    ¬ sep <:+: before := by
  induction s generalizing before with
  | nil => simp [cut?, nonempty] at cut
  | cons c s ih =>
      rw [cut?] at cut
      split at cut
      · cases cut
        simpa using nonempty
      · rename_i later
        obtain ⟨⟨front, back⟩, tail, same⟩ := Option.map_eq_some_iff.mp cut
        cases same
        rw [List.infix_cons_iff]
        rintro (here | further)
        · refine later (List.isPrefixOf_iff_prefix.mpr (here.trans ?_))
          rw [cut?_append tail, List.append_assoc]
          exact List.prefix_append (c :: front) _
        · exact ih tail further

/-- No separator occurs in a piece. -/
theorem not_infix_of_mem_pieces {nonempty : sep ≠ []} {piece : List Char}
    (member : piece ∈ pieces sep nonempty s) : ¬ sep <:+: piece := by
  fun_induction pieces sep nonempty s with
  | case1 s none =>
      obtain rfl := List.mem_singleton.mp member
      exact (cut?_eq_none_iff nonempty).mp none
  | case2 s before after cut ih =>
      rcases List.mem_cons.mp member with rfl | later
      · exact not_infix_of_cut? nonempty cut
      · exact ih later

/-- A text is cut at a character unless it does not have it. -/
theorem cut?_char_eq_none_iff : cut? [c] s = none ↔ c ∉ s := by
  rw [cut?_eq_none_iff (List.cons_ne_nil c []), List.singleton_infix_iff]

/-- The first occurrence of a character is where nothing before it is the same. -/
theorem cut?_char (absent : c ∉ s) (t : List Char) : cut? [c] (s ++ c :: t) = some (s, t) :=
  cut?_append_of_none List.not_mem_nil (cut?_char_eq_none_iff.mpr absent)

/-- Cutting at every occurrence of a character splits the text there. -/
theorem pieces_char {nonempty : [c] ≠ []} (s : List Char) :
    pieces [c] nonempty s = s.splitOn c := by
  fun_induction pieces [c] nonempty s with
  | case1 s none => rw [List.splitOn_eq_singleton (cut?_char_eq_none_iff.mp none)]
  | case2 s before after cut ih =>
      have absent : c ∉ before := by
        have apart := not_infix_of_cut? nonempty cut
        rwa [List.singleton_infix_iff] at apart
      have whole : s = before ++ c :: after := by
        rw [cut?_append cut, List.append_assoc, List.singleton_append]
      rw [whole, List.splitOn_append_cons_self_of_not_mem absent, ih]

/-- What occurs in a text without one of its characters occurs before it or after it. -/
theorem infix_of_notMem {l : List Char} (absent : c ∉ l) (occurs : l <:+: s ++ c :: t) :
    l <:+: s ∨ l <:+: t := by
  rcases List.infix_append_iff.mp occurs with before | after | ⟨left, right, rfl, ends, begins⟩
  · exact .inl before
  · rcases List.infix_cons_iff.mp after with begins | after
    · rcases List.prefix_cons_iff.mp begins with rfl | ⟨rest, rfl, -⟩
      · exact .inr (List.nil_infix)
      · exact absurd List.mem_cons_self absent
    · exact .inr after
  · rcases List.prefix_cons_iff.mp begins with rfl | ⟨rest, rfl, -⟩
    · rw [List.append_nil]
      exact .inl ends.isInfix
    · exact absurd (List.mem_append_right left List.mem_cons_self) absent

end RunControl.Text
