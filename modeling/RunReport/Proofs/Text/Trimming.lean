import Mathlib.Data.List.TakeWhile
import RunReport.Text.Split
import RunReport.Table.Writing

/-!
# Texts without the blanks at their ends

Blanks before or after a text make no difference once it is trimmed, so a text is
read back from a cell that was filled with spaces. Nothing is cut from the end of
a text that comes before a character which is not blank.
-/

namespace RunReport.Text

/-- What is cut from the end of a text is blank. -/
theorem exists_trimEnd_append (cs : List Char) :
    ∃ ds, (∀ c ∈ ds, isBlank c = true) ∧ trimEnd cs ++ ds = cs := by
  refine ⟨(cs.reverse.takeWhile isBlank).reverse, fun c given => ?_, ?_⟩
  · exact List.mem_takeWhile_imp (List.mem_reverse.1 given)
  · rw [trimEnd, ← List.reverse_append, List.takeWhile_append_dropWhile, List.reverse_reverse]

variable {ds : List Char}

/-- Blanks at the end are cut. -/
theorem trimEnd_append_of_blank (cs : List Char) (blank : ∀ c ∈ ds, isBlank c = true) :
    trimEnd (cs ++ ds) = trimEnd cs := by
  have reversed : ∀ c ∈ ds.reverse, isBlank c = true := fun c given =>
    blank c (List.mem_reverse.1 given)
  rw [trimEnd, List.reverse_append, List.dropWhile_append_of_pos reversed, trimEnd]

/-- A space at the end is cut. -/
theorem trimEnd_append_space (cs : List Char) : trimEnd (cs ++ [' ']) = trimEnd cs :=
  trimEnd_append_of_blank cs (List.forall_mem_singleton.2 rfl)

/-- Blanks at the end make no difference to a trimmed text. -/
theorem trim_append_of_blank (cs : List Char) (blank : ∀ c ∈ ds, isBlank c = true) :
    trim (cs ++ ds) = trim cs := by
  rw [trim, trim, trimStart, trimStart, List.dropWhile_append]
  split
  · rename_i empty
    rw [List.dropWhile_eq_nil_iff.2 blank, List.isEmpty_iff.1 empty]
  · exact trimEnd_append_of_blank _ blank

/-- A blank in front makes no difference to a trimmed text. -/
theorem trim_cons_of_blank {c : Char} (blank : isBlank c = true) (cs : List Char) :
    trim (c :: cs) = trim cs := by
  rw [trim, trimStart, List.dropWhile_cons_of_pos blank, trim, trimStart]

/-- Nothing is left exactly of a text that is blank. -/
theorem trim_eq_nil_iff {cs : List Char} : trim cs = [] ↔ ∀ c ∈ cs, isBlank c = true := by
  constructor
  · intro empty c given
    obtain ⟨ds, blank, whole⟩ := exists_trimEnd_append (trimStart cs)
    rw [← trim, empty, List.nil_append] at whole
    rw [← List.takeWhile_append_dropWhile (p := isBlank) (l := cs)] at given
    rcases List.mem_append.1 given with front | back
    · exact List.mem_takeWhile_imp front
    · exact blank c (whole ▸ back)
  · intro blank
    rw [trim, trimStart, List.dropWhile_eq_nil_iff.2 blank]
    rfl

/-- A text is read back from the left of its cell. -/
theorem trim_leftAligned (width : Nat) (cs : List Char) :
    trim (leftAligned width cs) = trim cs := by
  refine trim_append_of_blank cs fun c given => ?_
  rw [List.eq_of_mem_replicate given]
  rfl

/-- The start of a line is read alike whether or not its end is cut. -/
theorem trim_take_trimEnd (width : Nat) (cs : List Char) :
    trim ((trimEnd cs).take width) = trim (cs.take width) := by
  obtain ⟨ds, blank, whole⟩ := exists_trimEnd_append cs
  have start :
      cs.take width = (trimEnd cs).take width ++ ds.take (width - (trimEnd cs).length) := by
    rw [← List.take_append, whole]
  rw [start, trim_append_of_blank _ fun c given => blank c (List.mem_of_mem_take given)]

/-- What is left when the end is cut is how the text begins. -/
theorem trimEnd_begins (cs : List Char) : trimEnd cs <+: cs := by
  obtain ⟨ds, _, whole⟩ := exists_trimEnd_append cs
  exact ⟨ds, whole⟩

/-- Nothing is cut from the end of a text exactly when it does not end in a blank. -/
theorem trimEnd_eq_self_iff {cs : List Char} :
    trimEnd cs = cs ↔ ∀ c, cs.getLast? = some c → isBlank c = false := by
  rw [trimEnd, List.reverse_eq_iff, List.dropWhile_eq_self_iff, ← List.head?_reverse]
  cases cs.reverse with
  | nil => simp
  | cons c rest => simp

/-- A text is cut at its end as what stands behind a character that is not blank. -/
theorem trimEnd_append_cons {c : Char} (filled : isBlank c = false) (before after : List Char) :
    trimEnd (before ++ c :: after) = before ++ c :: trimEnd after := by
  have kept : (c :: before.reverse).dropWhile isBlank = c :: before.reverse :=
    List.dropWhile_cons_of_neg (by simp [filled])
  have reversed : (before ++ c :: after).reverse = after.reverse ++ c :: before.reverse := by
    simp
  rw [trimEnd, trimEnd, reversed, List.dropWhile_append, kept]
  split
  · rename_i blank
    simp [List.isEmpty_iff.1 blank]
  · simp

/-- Nothing is cut before a character that is not blank. -/
theorem mem_trimEnd {before after : List Char} {c d : Char} (filled : isBlank c = false)
    (given : d ∈ before) : d ∈ trimEnd (before ++ c :: after) := by
  rw [trimEnd_append_cons filled]
  exact List.mem_append_left _ given

/-- What is left when the end is cut was there before. -/
theorem mem_of_mem_trimEnd {cs : List Char} {c : Char} (given : c ∈ trimEnd cs) : c ∈ cs :=
  (trimEnd_begins cs).subset given

/-- A character that is not blank is not cut. -/
theorem mem_trimEnd_iff {cs : List Char} {c : Char} (filled : isBlank c = false) :
    c ∈ trimEnd cs ↔ c ∈ cs := by
  refine ⟨mem_of_mem_trimEnd, fun given => ?_⟩
  obtain ⟨before, after, rfl⟩ := List.append_of_mem given
  rw [trimEnd_append_cons filled]
  exact List.mem_append_right _ List.mem_cons_self

/-- A text that fits is filled up to the width of its cell. -/
theorem length_leftAligned {width : Nat} {cs : List Char} (fits : cs.length ≤ width) :
    (leftAligned width cs).length = width := by
  rw [leftAligned, List.length_append, List.length_replicate, Nat.add_sub_cancel' fits]

/-- So it is from the other side. -/
theorem length_rightAligned {width : Nat} {cs : List Char} (fits : cs.length ≤ width) :
    (rightAligned width cs).length = width := by
  rw [rightAligned, List.length_append, List.length_replicate, Nat.sub_add_cancel fits]

/-- A cell has the characters of its text and spaces. -/
theorem mem_leftAligned {c : Char} (other : c ≠ ' ') {width : Nat} {cs : List Char} :
    c ∈ leftAligned width cs ↔ c ∈ cs := by
  simp [leftAligned, List.mem_replicate, other]

/-- A cell has the characters of its text and spaces. -/
theorem mem_rightAligned {c : Char} (other : c ≠ ' ') {width : Nat} {cs : List Char} :
    c ∈ rightAligned width cs ↔ c ∈ cs := by
  simp [rightAligned, List.mem_replicate, other]

end RunReport.Text
