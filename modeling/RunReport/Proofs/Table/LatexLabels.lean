import RunReport.Proofs.Table.Latex
import RunReport.Proofs.Text.Search

/-!
# Labels read back from LaTeX

A table in LaTeX has three rules: above the headings, below them and below the
rows. No text of the table can look like a rule, like the end of a row or like
what parts two cells. So the rows are found between the second and the last rule,
and each of them has its label before its first ampersand.
-/

namespace RunReport.Table

open Latex Search

/-- A rule of a table in LaTeX. -/
def latexRule : List Char := "\\hline\n".toList

/-- The end of a row in LaTeX. -/
def latexEnd : List Char := "\\\\\n".toList

/-- What parts the cells of a row in LaTeX. -/
def latexBar : List Char := " & ".toList

/-- The first cell of a row in LaTeX, read back. -/
def latexLabel (row : List Char) : String :=
  String.ofList (unescapeChars (upTo latexBar row))

/-- The labels that are read from a table in LaTeX: those of the rows between the
second and the last rule. -/
def latexLabels (text : String) : List String :=
  let body := latexRule.intercalate ((chunks latexRule text.toList).drop 2).dropLast
  (chunks latexEnd body).dropLast.map latexLabel

/-- The cells of a row in LaTeX. -/
def latexCells (cells : List String) : List Char :=
  latexBar.intercalate (cells.map fun cell => escapeChars cell.toList) ++ [' ']

/-- A row is its cells and an end. -/
theorem latexRow_eq (cells : List String) : latexRow cells = latexCells cells ++ latexEnd := by
  rw [latexCells, List.append_assoc]
  rfl

/-- The first cell stands before a bar if there is another one. -/
theorem latexCells_cons_cons (cell next : String) (cells : List String) :
    latexCells (cell :: next :: cells) =
      escapeChars cell.toList ++ (latexBar ++ latexCells (next :: cells)) := by
  simp only [latexCells, List.map_cons, List.intercalate_cons_cons, List.append_assoc]

/-- In a text that LaTeX prints no rule and no end of a row begins. -/
theorem clear_escapeChars {b : Char} (pair : ('\\', b) ∈ forbidden) (cs : List Char) :
    Clear '\\' b (escapeChars cs) :=
  ⟨isChain_escapeChars pair cs, getLast?_escapeChars cs⟩

/-- No rule and no end of a row begins in the cells of a row. -/
theorem clear_latexCells {b : Char} (pair : ('\\', b) ∈ forbidden) (cells : List String) :
    Clear '\\' b (latexCells cells) := by
  have space : Clear '\\' b [' '] := .of_notMem (by decide)
  have bar : Clear '\\' b latexBar := .of_notMem (by decide)
  induction cells with
  | nil => exact space
  | cons cell cells ih =>
    have first := clear_escapeChars pair cell.toList
    cases cells with
    | nil =>
      rw [latexCells, List.map_singleton, List.intercalate_singleton]
      exact first.append space
    | cons next cells =>
      rw [latexCells_cons_cons]
      exact first.append (bar.append ih)

/-- No rule begins in a row. -/
theorem clear_latexRow (cells : List String) : Clear '\\' 'h' (latexRow cells) := by
  rw [latexRow_eq]
  exact (clear_latexCells (by decide) cells).append ⟨by decide, by decide⟩

/-- No rule begins in the rows of a table. -/
theorem clear_latexBody (rows : List TableRow) : Clear '\\' 'h' (latexBody rows) := by
  induction rows with
  | nil => exact .of_notMem List.not_mem_nil
  | cons row rows ih =>
    rw [latexBody, List.flatMap_cons]
    exact (clear_latexRow _).append ih

/-- Rows are taken apart at their ends. -/
theorem chunks_latexBody (rows : List TableRow) :
    chunks latexEnd (latexBody rows) =
      rows.map (fun row => latexCells (row.label :: row.values)) ++ [[]] := by
  induction rows with
  | nil => exact chunks_of_none rfl
  | cons row rows ih =>
    rw [latexBody, List.flatMap_cons, latexRow_eq, List.append_assoc]
    have clear := clear_latexCells (b := '\\') (by decide) (row.label :: row.values)
    exact (chunks_append (clear.isChain_append '\\') _).trans (congrArg _ ih)

/-- The label of a row with a value is read back. -/
theorem latexLabel_latexCells {label : String} {values : List String} (filled : values ≠ []) :
    latexLabel (latexCells (label :: values)) = label := by
  obtain ⟨value, values, rfl⟩ := List.exists_cons_of_ne_nil filled
  have apart := isChain_escapeChars (a := ' ') (b := '&') (by decide) (label.toList ++ [' '])
  rw [escapeChars_append] at apart
  have first : upTo latexBar (latexCells (label :: value :: values)) =
      escapeChars label.toList := by
    rw [latexCells_cons_cons]
    exact upTo_append apart _
  rw [latexLabel, first, unescapeChars_escapeChars, String.ofList_toList]

/-- What stands before the first rule of a table. -/
def latexHead (t : Table) : List Char :=
  "\\begin\x7btable\x7d[ht]\n\\centering\n\\caption\x7b".toList ++
    (escapeChars t.title.toList ++ ("\x7d\n\\label\x7btab:".toList ++
    (escapeChars t.dataRef.toList ++ ("\x7d\n\\begin\x7btabular\x7d\x7bl".toList ++
    (escapeChars (List.replicate t.headers.length 'r') ++ "\x7d\n".toList)))))

/-- What stands after the last rule of a table. -/
def latexTail : List Char := "\\end\x7btabular\x7d\n\\end\x7btable\x7d\n".toList

/-- No rule begins before the first one. -/
theorem clear_latexHead (t : Table) : Clear '\\' 'h' t.latexHead := by
  have text (cs : List Char) : Clear '\\' 'h' (escapeChars cs) :=
    clear_escapeChars (by decide) cs
  have opening : Clear '\\' 'h' "\\begin\x7btable\x7d[ht]\n\\centering\n\\caption\x7b".toList :=
    ⟨by decide, by decide⟩
  have label : Clear '\\' 'h' "\x7d\n\\label\x7btab:".toList := ⟨by decide, by decide⟩
  have columns : Clear '\\' 'h' "\x7d\n\\begin\x7btabular\x7d\x7bl".toList :=
    ⟨by decide, by decide⟩
  have closing : Clear '\\' 'h' "\x7d\n".toList := .of_notMem (by decide)
  exact opening.append ((text _).append (label.append ((text _).append
    (columns.append ((text _).append closing)))))

/-- A table has three rules: above the headings, below them and below the rows. -/
theorem chunks_latex (t : Table) :
    chunks latexRule t.latex.toList =
      [t.latexHead, latexRow (t.nameColumn :: t.headers), latexBody t.rows, latexTail] := by
  have whole : t.latex.toList = t.latexHead ++ (latexRule ++
      (latexRow (t.nameColumn :: t.headers) ++ (latexRule ++
        (latexBody t.rows ++ (latexRule ++ latexTail))))) := by
    have regroup : ∀ opening title label key columns letters closing rule row body tail : List Char,
        opening ++ (title ++ (label ++ (key ++ (columns ++ (letters ++ ((closing ++ rule) ++
          (row ++ (rule ++ (body ++ (rule ++ tail)))))))))) =
        (opening ++ (title ++ (label ++ (key ++ (columns ++ (letters ++ closing)))))) ++
          (rule ++ (row ++ (rule ++ (body ++ (rule ++ tail))))) := by
      intros
      simp only [List.append_assoc]
    exact t.toList_latex.trans (regroup _ _ _ _ _ _ "\x7d\n".toList latexRule _ _ latexTail)
  have last : chunks latexRule latexTail = [latexTail] :=
    chunks_of_none (cut?_of_notMem (c := 'h') (by decide) (by decide))
  rw [whole]
  refine (chunks_append (t.clear_latexHead.isChain_append '\\') _).trans (congrArg _ ?_)
  refine (chunks_append ((clear_latexRow _).isChain_append '\\') _).trans (congrArg _ ?_)
  refine (chunks_append ((clear_latexBody _).isChain_append '\\') _).trans (congrArg _ ?_)
  exact last

/-- The labels of a table in LaTeX are read back whatever its texts are, if each
row has a value. -/
theorem latexLabels_latex {t : Table} (filled : ∀ row ∈ t.rows, row.values ≠ []) :
    latexLabels t.latex = t.rows.map (·.label) := by
  simp only [latexLabels, chunks_latex, List.drop_succ_cons, List.drop_zero,
    List.dropLast_cons_cons, List.dropLast_singleton, List.intercalate_singleton, chunks_latexBody,
    List.dropLast_concat, List.map_map]
  exact List.map_congr_left fun row given => latexLabel_latexCells (filled row given)

end RunReport.Table
