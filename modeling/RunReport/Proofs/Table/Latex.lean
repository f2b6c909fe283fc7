import RunReport.Proofs.Text.Latex
import RunReport.Table.Writing

/-!
# Telling LaTeX tables apart

A cell of a LaTeX table ends at the first ampersand or pair of backslashes that
is not part of a code word, a row at the pair of backslashes, and the rows at the
rule below them. No text of a table can look like one of these, so the rendering
of a table shows where each of its texts begins and ends, and two tables that are
rendered alike have the same texts in the same places.
-/

namespace RunReport.Table

open Latex

/-- The texts of a table: its title and key, its headings and its cells. What it
leaves out is the least width of the values, which LaTeX has no use for. -/
def SameTexts (t u : Table) : Prop :=
  t.title = u.title ∧ t.dataRef = u.dataRef ∧ t.nameColumn = u.nameColumn ∧
    t.headers = u.headers ∧
    t.rows.map (fun row => (row.label, row.values)) = u.rows.map fun row => (row.label, row.values)

/-- The last cell of a row ends at a pair of backslashes. -/
theorem latexRow_singleton (cell : String) :
    latexRow [cell] = escapeChars (cell.toList ++ [' ']) ++ '\\' :: '\\' :: ['\n'] := by
  rw [escapeChars_append, List.append_assoc, latexRow, List.map_singleton,
    List.intercalate_singleton]
  rfl

/-- Every other cell of a row ends at an ampersand. -/
theorem latexRow_cons_cons (cell next : String) (cells : List String) :
    latexRow (cell :: next :: cells) =
      escapeChars (cell.toList ++ [' ']) ++ '&' :: ' ' :: latexRow (next :: cells) := by
  rw [escapeChars_append, List.append_assoc]
  simp only [latexRow, List.map_cons, List.intercalate_cons_cons, List.append_assoc]
  rfl

/-- A row shows its cells, whatever stands after it. -/
theorem latexRow_append_inj {cell other : String} {cells others : List String} {x y : List Char}
    (h : latexRow (cell :: cells) ++ x = latexRow (other :: others) ++ y) :
    cell :: cells = other :: others ∧ x = y := by
  induction cells generalizing cell other others with
  | nil =>
    cases others with
    | nil =>
      simp only [latexRow_singleton, List.append_assoc] at h
      obtain ⟨same, after⟩ := escapeChars_append_inj rfl rfl h
      have text := String.toList_inj.1 (List.append_cancel_right same)
      have rest : ['\\', '\\', '\n'] ++ x = ['\\', '\\', '\n'] ++ y := after
      exact ⟨by rw [text], List.append_cancel_left rest⟩
    | cons next others =>
      rw [latexRow_singleton, latexRow_cons_cons, List.append_assoc, List.append_assoc] at h
      have after := (escapeChars_append_inj rfl rfl h).2
      exact absurd (List.cons.inj after).1 (by decide)
  | cons next cells ih =>
    cases others with
    | nil =>
      rw [latexRow_singleton, latexRow_cons_cons, List.append_assoc, List.append_assoc] at h
      have after := (escapeChars_append_inj rfl rfl h).2
      exact absurd (List.cons.inj after).1 (by decide)
    | cons second others =>
      simp only [latexRow_cons_cons, List.append_assoc] at h
      obtain ⟨same, after⟩ := escapeChars_append_inj rfl rfl h
      have text := String.toList_inj.1 (List.append_cancel_right same)
      have later : ['&', ' '] ++ (latexRow (next :: cells) ++ x) =
          ['&', ' '] ++ (latexRow (second :: others) ++ y) := after
      obtain ⟨rest, after⟩ := ih (List.append_cancel_left later)
      exact ⟨by rw [text, rest], after⟩

/-- A row begins with a code word, be it that of the space after an empty cell. -/
theorem readWord_latexRow_append (cell : String) (cells : List String) (x : List Char) :
    readWord (latexRow (cell :: cells) ++ x) ≠ none := by
  have begins : ∃ rest, latexRow (cell :: cells) = escapeChars (cell.toList ++ [' ']) ++ rest := by
    cases cells with
    | nil => exact ⟨_, latexRow_singleton cell⟩
    | cons next cells => exact ⟨_, latexRow_cons_cons cell next cells⟩
  obtain ⟨rest, begins⟩ := begins
  obtain ⟨c, cs, first⟩ := List.exists_cons_of_ne_nil (l := cell.toList ++ [' ']) (by simp)
  rw [begins, first, escapeChars_cons, List.append_assoc, List.append_assoc,
    readWord_codeWord_append]
  exact Option.some_ne_none _

/-- The rows of a table, one after the other. -/
def latexBody (rows : List TableRow) : List Char :=
  rows.flatMap fun row => latexRow (row.label :: row.values)

/-- Rows up to a place where no code word begins show all of their cells. -/
theorem latexBody_append_inj {rows others : List TableRow} {x y : List Char}
    (hx : readWord x = none) (hy : readWord y = none)
    (h : latexBody rows ++ x = latexBody others ++ y) :
    rows.map (fun row => (row.label, row.values)) =
      others.map (fun row => (row.label, row.values)) := by
  induction rows generalizing others with
  | nil =>
    cases others with
    | nil => rfl
    | cons row others =>
      have begins := readWord_latexRow_append row.label row.values (latexBody others ++ y)
      rw [← List.append_assoc] at begins
      exact absurd (h ▸ hx) begins
  | cons row rows ih =>
    cases others with
    | nil =>
      have begins := readWord_latexRow_append row.label row.values (latexBody rows ++ x)
      rw [← List.append_assoc] at begins
      exact absurd (h.symm ▸ hy) begins
    | cons other others =>
      simp only [latexBody, List.flatMap_cons, List.append_assoc] at h
      obtain ⟨cells, rest⟩ := latexRow_append_inj h
      obtain ⟨label, values⟩ := List.cons.inj cells
      rw [List.map_cons, List.map_cons, ih rest, label, values]

/-- The letters that set the columns are printed as they are. -/
theorem escapeChars_columns (n : Nat) :
    escapeChars (List.replicate n 'r') = List.replicate n 'r' := by
  induction n with
  | zero => rfl
  | succ n ih =>
    rw [List.replicate_succ, escapeChars_cons, ih]
    rfl

/-- A text of the table comes before a brace, a headed row before a rule: no
code word begins with what stands after either. -/
theorem toList_latex (t : Table) : t.latex.toList =
    "\\begin\x7btable\x7d[ht]\n\\centering\n\\caption\x7b".toList ++
      (escapeChars t.title.toList ++ ("\x7d\n\\label\x7btab:".toList ++
      (escapeChars t.dataRef.toList ++ ("\x7d\n\\begin\x7btabular\x7d\x7bl".toList ++
      (escapeChars (List.replicate t.headers.length 'r') ++ ("\x7d\n\\hline\n".toList ++
      (latexRow (t.nameColumn :: t.headers) ++ ("\\hline\n".toList ++
      (latexBody t.rows ++
        "\\hline\n\\end\x7btabular\x7d\n\\end\x7btable\x7d\n".toList))))))))) := by
  refine String.toList_ofList.trans ?_
  rw [escapeChars_columns]
  simp only [latexBody, List.append_assoc]

/-- Two tables are rendered alike in LaTeX exactly when they have the same
texts: no text can be taken for the end of a cell, of a row or of the table. -/
theorem latex_eq_iff {t u : Table} : t.latex = u.latex ↔ t.SameTexts u := by
  constructor
  · intro h
    have chars := congrArg String.toList h
    rw [toList_latex, toList_latex] at chars
    obtain ⟨title, chars⟩ := escapeChars_append_inj rfl rfl (List.append_cancel_left chars)
    obtain ⟨key, chars⟩ := escapeChars_append_inj rfl rfl (List.append_cancel_left chars)
    obtain ⟨_, chars⟩ := escapeChars_append_inj rfl rfl (List.append_cancel_left chars)
    obtain ⟨heading, chars⟩ := latexRow_append_inj (List.append_cancel_left chars)
    obtain ⟨nameColumn, headers⟩ := List.cons.inj heading
    have rows := latexBody_append_inj rfl rfl (List.append_cancel_left chars)
    exact ⟨String.toList_inj.1 title, String.toList_inj.1 key, nameColumn, headers, rows⟩
  · rintro ⟨title, key, nameColumn, headers, rows⟩
    have body := congrArg (List.flatMap fun cells : String × List String =>
      latexRow (cells.1 :: cells.2)) rows
    rw [List.flatMap_map, List.flatMap_map] at body
    refine String.toList_inj.1 ?_
    rw [toList_latex, toList_latex, title, key, nameColumn, headers, latexBody, body]
    rfl

example : latexRow ["a & b"] ≠ latexRow ["a", "b"] := by decide

end RunReport.Table
