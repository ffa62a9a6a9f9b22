import RunControl.Rpc.Request

/-!
Identifiers of processes.

The colon between the group and the name of a process may stand in either of them, so an
identifier need not tell where the group ends. Two groups have an identifier in common exactly if
one is the other with a colon and more behind it (`exists_qualified_eq_iff`), and an identifier
belongs to one group and name only exactly if there is no other colon in it
(`qualified_unique_iff`).
-/

namespace RunControl

variable {group name other name' s : String}

/-- Whether a group is another with a colon and more behind it. -/
def Extends (group other : String) : Prop :=
  ∃ more, group = qualified other more

/-- The names of a group's processes make their identifiers. -/
theorem qualified_inj : qualified group name = qualified group name' ↔ name = name' := by
  unfold qualified
  rw [String.append_right_inj]

theorem qualified_assoc (group more name : String) :
    qualified (qualified group more) name = qualified group (qualified more name) := by
  simp only [qualified, String.append_assoc]

theorem toList_qualified (group name : String) :
    (qualified group name).toList = group.toList ++ ':' :: name.toList := by
  simp [qualified, String.toList_append]

/-- A text with a colon in it is an identifier. -/
theorem mem_colon_iff : ':' ∈ s.toList ↔ ∃ group name, s = qualified group name := by
  constructor
  · intro member
    obtain ⟨before, after, parts⟩ := List.append_of_mem member
    refine ⟨.ofList before, .ofList after, ?_⟩
    rw [← String.toList_inj, toList_qualified, String.toList_ofList, String.toList_ofList, parts]
  · rintro ⟨group, name, rfl⟩
    simp [toList_qualified]

theorem Extends.ne (extended : Extends group other) : group ≠ other := by
  rintro rfl
  obtain ⟨more, same⟩ := extended
  have lengths := congrArg (fun s => s.toList.length) same
  simp [toList_qualified] at lengths

/-- If a text is the beginning of two identifiers' groups, the longer group extends the other. -/
theorem extends_of_append {more rest rest' : List Char} (different : group ≠ other)
    (longer : group.toList = other.toList ++ more) (shared : ':' :: rest = more ++ ':' :: rest') :
    Extends group other := by
  cases more with
  | nil =>
      rw [List.append_nil, String.toList_inj] at longer
      exact absurd longer different
  | cons c more =>
      obtain ⟨rfl, -⟩ := List.cons.inj shared
      refine ⟨.ofList more, ?_⟩
      rw [← String.toList_inj, longer, toList_qualified, String.toList_ofList]

/-- Of two groups with an identifier in common one extends the other. -/
theorem extends_of_qualified_eq (different : group ≠ other)
    (same : qualified group name = qualified other name') :
    Extends group other ∨ Extends other group := by
  rw [← String.toList_inj, toList_qualified, toList_qualified] at same
  rcases List.append_eq_append_iff.mp same with ⟨more, longer, shared⟩ | ⟨more, longer, shared⟩
  · exact .inr (extends_of_append different.symm longer shared)
  · exact .inl (extends_of_append different longer shared)

/-- Two groups have an identifier in common exactly if one extends the other. -/
theorem exists_qualified_eq_iff (different : group ≠ other) :
    (∃ name name', qualified group name = qualified other name') ↔
      Extends group other ∨ Extends other group := by
  constructor
  · rintro ⟨name, name', same⟩
    exact extends_of_qualified_eq different same
  · rintro (⟨more, rfl⟩ | ⟨more, rfl⟩)
    · exact ⟨"", qualified more "", qualified_assoc other more ""⟩
    · exact ⟨qualified more "", "", (qualified_assoc group more "").symm⟩

/-- Only one group and name make an identifier exactly if there is no colon in either. -/
theorem qualified_unique_iff : (∀ group' name', qualified group' name' = qualified group name →
      group' = group ∧ name' = name) ↔ ':' ∉ group.toList ∧ ':' ∉ name.toList := by
  constructor
  · intro unique
    constructor
    · intro member
      obtain ⟨first, second, rfl⟩ := mem_colon_iff.mp member
      obtain ⟨same, -⟩ := unique first (qualified second name) (qualified_assoc _ _ _).symm
      exact Extends.ne ⟨second, rfl⟩ same.symm
    · intro member
      obtain ⟨first, second, rfl⟩ := mem_colon_iff.mp member
      obtain ⟨same, -⟩ := unique (qualified group first) second (qualified_assoc _ _ _)
      exact Extends.ne ⟨first, rfl⟩ same
  · rintro ⟨plain, plainName⟩ group' name' same
    by_cases here : group' = group
    · subst here
      exact ⟨rfl, qualified_inj.mp same⟩
    · rcases extends_of_qualified_eq here same with ⟨more, rfl⟩ | ⟨more, rfl⟩
      · rw [qualified_assoc, qualified_inj] at same
        exact absurd (mem_colon_iff.mpr ⟨_, _, same.symm⟩) plainName
      · exact absurd (mem_colon_iff.mpr ⟨_, _, rfl⟩) plain

end RunControl
