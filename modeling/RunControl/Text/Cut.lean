/-!
Cutting a text at the occurrences of a separator.

`cut?` cuts at the first occurrence and `pieces` at every one, taken from the left
without overlap. Nothing is lost: `cut?_append` and `join_pieces` put the text
together again.
-/

namespace RunControl.Text

/-- The texts before and after the first occurrence of `sep`. -/
def cut? (sep : List Char) : List Char → Option (List Char × List Char)
  | [] => if sep.isEmpty then some ([], []) else none
  | c :: r =>
    if sep.isPrefixOf (c :: r) then some ([], (c :: r).drop sep.length)
    else (cut? sep r).map fun (before, after) => (c :: before, after)

/-- What `cut?` takes apart is the whole text. -/
theorem cut?_append {sep s before after : List Char} (h : cut? sep s = some (before, after)) :
    s = before ++ sep ++ after := by
  induction s generalizing before with
  | nil =>
    simp only [cut?] at h
    split at h
    · rename_i hs
      have : sep = [] := List.isEmpty_iff.mp hs
      simp_all
    · cases h
  | cons c r ih =>
    simp only [cut?] at h
    split at h
    · rename_i hp
      obtain ⟨t, ht⟩ := List.isPrefixOf_iff_prefix.mp hp
      simp only [Option.some.injEq, Prod.mk.injEq] at h
      obtain ⟨rfl, rfl⟩ := h
      rw [← ht]
      simp
    · obtain ⟨⟨b, a⟩, hcut, heq⟩ := Option.map_eq_some_iff.mp h
      simp only [Prod.mk.injEq] at heq
      obtain ⟨rfl, rfl⟩ := heq
      rw [ih hcut]
      rfl

/-- The rest after a non-empty separator is shorter than the text. -/
theorem cut?_length_lt {sep s before after : List Char} (nonempty : sep ≠ [])
    (h : cut? sep s = some (before, after)) : after.length < s.length := by
  have := List.length_pos_iff.mpr nonempty
  rw [cut?_append h]
  simp only [List.length_append]
  omega

/-- The pieces between the occurrences of a non-empty separator. -/
def pieces (sep : List Char) (nonempty : sep ≠ []) (s : List Char) : List (List Char) :=
  match _h : cut? sep s with
  | none => [s]
  | some (before, after) => before :: pieces sep nonempty after
termination_by s.length
decreasing_by exact cut?_length_lt nonempty ‹_›

/-- Putting the separator between the pieces gives the text back. -/
theorem join_pieces (sep : List Char) (nonempty : sep ≠ []) (s : List Char) :
    List.intercalate sep (pieces sep nonempty s) = s := by
  fun_induction pieces sep nonempty s with
  | case1 s h => simp [List.intercalate]
  | case2 s before after h ih =>
    have rest : pieces sep nonempty after ≠ [] := by
      unfold pieces
      split <;> simp
    rw [cut?_append h]
    conv => rhs; rw [← ih]
    cases hp : pieces sep nonempty after with
    | nil => exact absurd hp rest
    | cons p ps => simp [List.intercalate, List.intersperse]

end RunControl.Text
