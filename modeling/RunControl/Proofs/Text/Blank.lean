import Mathlib.Data.List.TakeWhile
import RunControl.Text.Blank

/-!
Texts and the blanks at their ends.

`Trims s t` says what trimming is to do, and `trim_eq_iff` that it does nothing else: the text that
is left is the only one without blanks at its ends from which the whole text comes by putting blanks
around it. Blanks around a list make no difference to what is left of its parts
(`map_trim_splitOn`).
-/

namespace RunControl.Text

variable {c : Char} {s t before after : List Char}

/-- A text with no blank at its start and none at its end. -/
structure Bare (t : List Char) : Prop where
  head : ∀ c ∈ t.head?, isBlank c = false
  last : ∀ c ∈ t.getLast?, isBlank c = false

theorem bare_iff :
    t.head?.all (! isBlank ·) = true ∧ t.getLast?.all (! isBlank ·) = true ↔ Bare t := by
  simp only [Option.all_eq_true, Bool.not_eq_true']
  exact ⟨fun ⟨head, last⟩ => ⟨head, last⟩, fun ⟨head, last⟩ => ⟨head, last⟩⟩

instance (t : List Char) : Decidable (Bare t) :=
  decidable_of_iff _ bare_iff

/-- The second text is the first without the blanks at its ends. -/
inductive Trims : List Char → List Char → Prop where
  | around {before t after : List Char} (front : ∀ c ∈ before, isBlank c = true) (bare : Bare t)
      (back : ∀ c ∈ after, isBlank c = true) : Trims (before ++ t ++ after) t

theorem Trims.bare (trims : Trims s t) : Bare t := by
  cases trims with
  | around _ bare _ => exact bare

theorem bare_trim (s : List Char) : Bare (trim s) :=
  ⟨fun _ => trim_head, fun _ => trim_last⟩

theorem trimStart_append_blanks (front : ∀ c ∈ before, isBlank c = true) (s : List Char) :
    trimStart (before ++ s) = trimStart s :=
  List.dropWhile_append_of_pos front

theorem trimEnd_append_blanks (back : ∀ c ∈ after, isBlank c = true) (s : List Char) :
    trimEnd (s ++ after) = trimEnd s := by
  have back' : ∀ c ∈ after.reverse, isBlank c = true := fun c member =>
    back c (List.mem_reverse.mp member)
  rw [trimEnd, List.reverse_append, List.dropWhile_append_of_pos back', trimEnd]

/-- Trimming the start only takes blanks away. -/
theorem exists_trimStart (s : List Char) :
    ∃ before, s = before ++ trimStart s ∧ ∀ c ∈ before, isBlank c = true :=
  ⟨s.takeWhile isBlank, List.takeWhile_append_dropWhile.symm, fun _ => List.mem_takeWhile_imp⟩

theorem exists_trimEnd (s : List Char) :
    ∃ after, s = trimEnd s ++ after ∧ ∀ c ∈ after, isBlank c = true := by
  obtain ⟨after, same, blank⟩ := exists_trimStart s.reverse
  refine ⟨after.reverse, ?_, fun c member => blank c (List.mem_reverse.mp member)⟩
  rw [trimEnd, ← List.reverse_append]
  exact List.reverse_eq_iff.mp same

theorem trims_trim (s : List Char) : Trims s (trim s) := by
  obtain ⟨before, whole, front⟩ := exists_trimStart s
  obtain ⟨after, rest, back⟩ := exists_trimEnd (trimStart s)
  have trims := Trims.around front (bare_trim s) back
  have same : before ++ trim s ++ after = s := by
    rw [List.append_assoc, trim, ← rest, ← whole]
  rwa [same] at trims

theorem Bare.trimEnd_eq (bare : Bare t) : trimEnd t = t := by
  cases ends : t.reverse with
  | nil =>
      rw [List.reverse_eq_nil_iff.mp ends]
      rfl
  | cons c others =>
      have last : t.getLast? = some c := by rw [← List.head?_reverse, ends, List.head?_cons]
      have kept : (c :: others).dropWhile isBlank = c :: others :=
        List.dropWhile_cons_of_neg (by simp [bare.last c last])
      rw [trimEnd, ends, kept, ← ends, List.reverse_reverse]

/-- Nothing else is what trimming leaves. -/
theorem Trims.trim_eq (trims : Trims s t) : trim s = t := by
  cases trims with
  | @around before _ after front bare back =>
      rw [List.append_assoc, trim, trimStart_append_blanks front]
      cases t with
      | nil =>
          rw [List.nil_append, trimStart, List.dropWhile_eq_nil_iff.mpr back]
          rfl
      | cons c t =>
          have visible : ¬ isBlank c = true := by simp [bare.head c rfl]
          rw [List.cons_append, trimStart, List.dropWhile_cons_of_neg visible, ← List.cons_append,
            trimEnd_append_blanks back, bare.trimEnd_eq]

theorem trim_eq_iff : trim s = t ↔ Trims s t := by
  constructor
  · rintro rfl
    exact trims_trim s
  · exact Trims.trim_eq

/-- Trimming brings nothing into a text. -/
theorem mem_of_mem_trim (member : c ∈ trim s) : c ∈ s := by
  obtain ⟨before, whole, -⟩ := exists_trimStart s
  obtain ⟨after, rest, -⟩ := exists_trimEnd (trimStart s)
  rw [whole, rest]
  exact List.mem_append_right _ (List.mem_append_left _ member)

/-- More blanks around a text are trimmed too. -/
theorem Trims.pad (trims : Trims s t) (front : ∀ c ∈ before, isBlank c = true)
    (back : ∀ c ∈ after, isBlank c = true) : Trims (before ++ s ++ after) t := by
  cases trims with
  | @around first _ last front' bare back' =>
      have same : before ++ (first ++ t ++ last) ++ after =
          (before ++ first) ++ t ++ (last ++ after) := by simp only [List.append_assoc]
      rw [same]
      refine .around (fun c member => ?_) bare (fun c member => ?_)
      · rcases List.mem_append.mp member with member | member
        · exact front c member
        · exact front' c member
      · rcases List.mem_append.mp member with member | member
        · exact back' c member
        · exact back c member

theorem trim_pad (front : ∀ c ∈ before, isBlank c = true) (back : ∀ c ∈ after, isBlank c = true)
    (s : List Char) : trim (before ++ s ++ after) = trim s :=
  ((trims_trim s).pad front back).trim_eq

/-! ### Parts of a list -/

theorem notMem_of_blank (visible : isBlank c = false) (blank : ∀ b ∈ before, isBlank b = true) :
    c ∉ before := by
  intro member
  exact Bool.false_ne_true (visible.symm.trans (blank c member))

/-- Blanks before a list stand in its first part. -/
theorem map_trim_splitOn_front (visible : isBlank c = false)
    (front : ∀ b ∈ before, isBlank b = true) (s : List Char) :
    ((before ++ s).splitOn c).map trim = (s.splitOn c).map trim := by
  have outside := notMem_of_blank visible front
  have nothing : ∀ b ∈ ([] : List Char), isBlank b = true := nofun
  have padded (part : List Char) : trim (before ++ part) = trim part := by
    simpa using trim_pad front nothing part
  by_cases member : c ∈ s
  · obtain ⟨first, others, rfl, absent⟩ := List.eq_append_cons_of_mem member
    have absent' : c ∉ before ++ first := by simp [outside, absent]
    rw [← List.append_assoc, List.splitOn_append_cons_self_of_not_mem absent',
      List.splitOn_append_cons_self_of_not_mem absent, List.map_cons, List.map_cons, padded]
  · have member' : c ∉ before ++ s := by simp [outside, member]
    rw [List.splitOn_eq_singleton member', List.splitOn_eq_singleton member, List.map_singleton,
      List.map_singleton, padded]

/-- Blanks behind a list stand in its last part. -/
theorem map_trim_splitOn_back (visible : isBlank c = false)
    (back : ∀ b ∈ after, isBlank b = true) (s : List Char) :
    ((s ++ after).splitOn c).map trim = (s.splitOn c).map trim := by
  have outside := notMem_of_blank visible back
  have nothing : ∀ b ∈ ([] : List Char), isBlank b = true := nofun
  have padded (part : List Char) : trim (part ++ after) = trim part := by
    simpa using trim_pad nothing back part
  by_cases member : c ∈ s
  · obtain ⟨last, others, reversed, absent⟩ :=
      List.eq_append_cons_of_mem (List.mem_reverse.mpr member)
    have same : s = others.reverse ++ c :: last.reverse := by
      rw [← List.reverse_reverse s, reversed]
      simp
    have absent' : c ∉ last.reverse := by simpa using absent
    have absent'' : c ∉ last.reverse ++ after := by simp [outside, absent]
    rw [same, List.append_assoc, List.cons_append, List.splitOn_append_cons_self,
      List.splitOn_append_cons_self, List.splitOn_eq_singleton absent',
      List.splitOn_eq_singleton absent'']
    simp [padded]
  · have member' : c ∉ s ++ after := by simp [outside, member]
    rw [List.splitOn_eq_singleton member', List.splitOn_eq_singleton member, List.map_singleton,
      List.map_singleton, padded]

/-- What is left of the parts of a list does not hang on blanks around the list. -/
theorem map_trim_splitOn (visible : isBlank c = false) (trims : Trims s t) :
    (s.splitOn c).map trim = (t.splitOn c).map trim := by
  cases trims with
  | around front _ back =>
      rw [map_trim_splitOn_back visible back, map_trim_splitOn_front visible front]

end RunControl.Text
