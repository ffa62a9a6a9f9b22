/-!
White space and its removal from the ends of a text.

A character is blank when it has the Unicode property `White_Space`. What is left
after trimming neither starts nor ends with a blank (`trimStart_head`,
`trim_head`, `trim_last`).
-/

namespace RunControl.Text

/-- The 25 code points with the property `White_Space`. -/
def isBlank (c : Char) : Bool :=
  let n := c.toNat
  (0x9 ≤ n && n ≤ 0xD) || n == 0x20 || n == 0x85 || n == 0xA0 || n == 0x1680 ||
    (0x2000 ≤ n && n ≤ 0x200A) || n == 0x2028 || n == 0x2029 || n == 0x202F ||
    n == 0x205F || n == 0x3000

/-- The text without the blanks at its start. -/
def trimStart (s : List Char) : List Char :=
  s.dropWhile isBlank

/-- The text without the blanks at its end. -/
def trimEnd (s : List Char) : List Char :=
  (s.reverse.dropWhile isBlank).reverse

/-- The text without the blanks at either end. -/
def trim (s : List Char) : List Char :=
  trimEnd (trimStart s)

theorem dropWhile_head (p : Char → Bool) (s : List Char) {c : Char}
    (h : (s.dropWhile p).head? = some c) : p c = false := by
  induction s with
  | nil => simp at h
  | cons d r ih =>
    rw [List.dropWhile_cons] at h
    split at h
    · exact ih h
    · rename_i hd
      simp only [List.head?_cons, Option.some.injEq] at h
      subst h
      simpa using hd

theorem trimStart_head {s : List Char} {c : Char} (h : (trimStart s).head? = some c) :
    isBlank c = false :=
  dropWhile_head isBlank s h

theorem trimEnd_last {s : List Char} {c : Char} (h : (trimEnd s).getLast? = some c) :
    isBlank c = false := by
  rw [trimEnd, List.getLast?_reverse] at h
  exact dropWhile_head isBlank s.reverse h

/-- Trimming the end keeps the first character of what it leaves. -/
theorem trimEnd_head {s : List Char} {c : Char} (h : (trimEnd s).head? = some c) :
    s.head? = some c := by
  have split := List.takeWhile_append_dropWhile (p := isBlank) (l := s.reverse)
  have whole : s = trimEnd s ++ (s.reverse.takeWhile isBlank).reverse := by
    rw [trimEnd, ← List.reverse_append, split, List.reverse_reverse]
  rw [whole, List.head?_append, h]
  rfl

theorem trim_head {s : List Char} {c : Char} (h : (trim s).head? = some c) :
    isBlank c = false :=
  trimStart_head (trimEnd_head h)

theorem trim_last {s : List Char} {c : Char} (h : (trim s).getLast? = some c) :
    isBlank c = false :=
  trimEnd_last h

end RunControl.Text
