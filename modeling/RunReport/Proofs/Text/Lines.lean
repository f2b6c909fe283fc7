import Mathlib.Data.List.Basic
import RunReport.Text.Split

/-!
# Lines of a text

A text of closed lines is taken apart at its line breaks. If none of its lines
has a break of its own, then these lines are read back; otherwise there are more
lines to read than were written. So what stands from some line on is read as it
was written exactly when no line has a break.
-/

namespace RunReport

namespace Split

/-- Parts of two lists with a separator between them are the parts of both. -/
theorem parts_append_cons (separator : Char) (cs ds : List Char) :
    parts separator (cs ++ separator :: ds) = parts separator cs ++ parts separator ds := by
  induction cs with
  | nil => simp [parts]
  | cons c cs ih =>
    rw [List.cons_append, parts, parts]
    by_cases here : c = separator
    · rw [if_pos here, if_pos here, ih, List.cons_append]
    · rw [if_neg here, if_neg here, ih]
      have nonempty : parts separator cs ≠ [] := by
        cases cs with
        | nil => simp [parts]
        | cons d cs =>
          rw [parts]
          split
          · simp
          · split <;> simp
      cases first : parts separator cs with
      | nil => exact absurd first nonempty
      | cons part others => rfl

/-- A list without separators is its only part. -/
theorem parts_of_notMem {separator : Char} {cs : List Char} (h : separator ∉ cs) :
    parts separator cs = [cs] := by
  induction cs with
  | nil => rfl
  | cons c cs ih =>
    obtain ⟨differs, rest⟩ := not_or.1 (List.mem_cons.not.1 h)
    rw [parts, if_neg (Ne.symm differs), ih rest]

/-- There is one part more than there are separators. -/
theorem length_parts (separator : Char) (cs : List Char) :
    (parts separator cs).length = cs.count separator + 1 := by
  induction cs with
  | nil => rfl
  | cons c cs ih =>
    by_cases here : c = separator
    · rw [← List.nil_append (c :: cs), here, parts_append_cons, List.length_append, ih,
        List.nil_append, List.count_cons_self]
      exact Nat.add_comm _ _
    · rw [List.count_cons_of_ne here, ← ih, parts, if_neg here]
      cases later : parts separator cs with
      | nil =>
        rw [later] at ih
        cases ih
      | cons part others => rfl

end Split

namespace Text

/-- The lines of a text, each of which is closed by a line break. -/
def lines (cs : List Char) : List (List Char) := (Split.parts '\n' cs).dropLast

/-- Lines one after the other, each of them closed. -/
def ofLines (ls : List (List Char)) : List Char := ls.flatMap fun line => line ++ ['\n']

/-- The lines of closed lines are those that each of them has. -/
theorem lines_ofLines (ls : List (List Char)) :
    lines (ofLines ls) = ls.flatMap (Split.parts '\n') := by
  have each : Split.parts '\n' (ofLines ls) = ls.flatMap (Split.parts '\n') ++ [[]] := by
    induction ls with
    | nil => rfl
    | cons line ls ih =>
      rw [ofLines, List.flatMap_cons, List.append_assoc, List.singleton_append, ← ofLines,
        Split.parts_append_cons, ih, List.flatMap_cons, List.append_assoc]
  rw [lines, each, List.dropLast_concat]

/-- Lines without breaks are read back. -/
theorem lines_ofLines_of_notMem {ls : List (List Char)} (unbroken : ∀ line ∈ ls, '\n' ∉ line) :
    lines (ofLines ls) = ls := by
  rw [lines_ofLines]
  induction ls with
  | nil => rfl
  | cons line ls ih =>
    obtain ⟨here, later⟩ := List.forall_mem_cons.1 unbroken
    rw [List.flatMap_cons, Split.parts_of_notMem here, ih later, List.singleton_append]

/-- There are as many lines as breaks. -/
theorem length_lines (cs : List Char) : (lines cs).length = cs.count '\n' := by
  rw [lines, List.length_dropLast, Split.length_parts, Nat.add_sub_cancel]

/-- There are no fewer lines to read than were written, and no more of them exactly
when none has a break. -/
theorem length_lines_ofLines (ls : List (List Char)) :
    ls.length ≤ (lines (ofLines ls)).length ∧
      ((lines (ofLines ls)).length = ls.length → ∀ line ∈ ls, '\n' ∉ line) := by
  simp only [length_lines]
  induction ls with
  | nil => simp [ofLines]
  | cons line ls ih =>
    obtain ⟨least, all⟩ := ih
    have count : (ofLines (line :: ls)).count '\n' =
        line.count '\n' + 1 + (ofLines ls).count '\n' := by
      rw [ofLines, List.flatMap_cons, List.count_append, List.count_append, ← ofLines]
      rfl
    rw [count, List.length_cons, List.forall_mem_cons, ← List.count_eq_zero]
    exact ⟨by omega, fun same => ⟨by omega, all (by omega)⟩⟩

/-- What is read from the lines after the first ones is what was written there
exactly when no line has a break. -/
theorem map_drop_lines_eq_iff {α : Type} (heads : List (List Char)) {body : List (List Char)}
    {read : List Char → α} {written : List α} (reads : body.map read = written) :
    ((lines (ofLines (heads ++ body))).drop heads.length).map read = written ↔
      ∀ line ∈ heads ++ body, '\n' ∉ line := by
  constructor
  · intro same line given
    have count := congrArg List.length same
    obtain ⟨least, unbroken⟩ := length_lines_ofLines (heads ++ body)
    rw [← reads, List.length_map, List.length_map, List.length_drop] at count
    rw [List.length_append] at least unbroken
    exact unbroken (by omega) line given
  · intro unbroken
    rw [lines_ofLines_of_notMem unbroken, List.drop_left, reads]

end Text

end RunReport
