import RunReport.Table.Basic
import RunReport.Text.Split

/-!
# Tables as text

A table is written in Org text, in LaTeX or as plain text. Org text and plain text
fill their cells with spaces up to the width of a column; a longer text stays as it
is. Every format has its own way to keep the text of a cell from acting as a mark.
-/

namespace RunReport.Text

/-- The text at the left of its cell. -/
def leftAligned (width : Nat) (cs : List Char) : List Char :=
  cs ++ List.replicate (width - cs.length) ' '

/-- The text at the right of its cell. -/
def rightAligned (width : Nat) (cs : List Char) : List Char :=
  List.replicate (width - cs.length) ' ' ++ cs

end RunReport.Text

namespace RunReport.Latex

/-- The code word of a character: what LaTeX would act on is replaced by a word that
prints it. -/
def codeWord (c : Char) : List Char :=
  if c = '\\' then "\\textbackslash\x7b\x7d".toList
  else if c = '~' then "\\textasciitilde\x7b\x7d".toList
  else if c = '^' then "\\textasciicircum\x7b\x7d".toList
  else if c = '&' || c = '%' || c = '$' || c = '#' || c = '_' || c = '\x7b' || c = '\x7d' then
    ['\\', c]
  else [c]

/-- The characters of a text as LaTeX prints them. -/
def escapeChars (cs : List Char) : List Char := cs.flatMap codeWord

/-- A text as LaTeX prints it. -/
def escape (s : String) : String := String.ofList (escapeChars s.toList)

end RunReport.Latex

namespace RunReport.Table

/-!
## Org text

A caption, a name, the headings, a rule and one line for each row. Bars part
the cells, so a bar within a cell is written as an entity. Columns are as wide
as their widest cell.
-/

/-- The characters of a cell, bars replaced. -/
def orgCell (cell : String) : List Char :=
  cell.toList.flatMap fun c => if c = '|' then "\\vert\x7b\x7d".toList else [c]

/-- The greater width, column by column; columns beyond the shorter list stay. -/
def widen : List Nat → List (List Char) → List Nat
  | w :: widths, cell :: cells => max w cell.length :: widen widths cells
  | widths, _ => widths

/-- Widths of the columns in Org text. -/
def orgWidths (t : Table) : List Nat :=
  (t.rows.map fun row => (row.label :: row.values).map orgCell).foldl widen
    (((t.nameColumn :: t.headers).map orgCell).map List.length)

/-- A line: the first cell at the left, the others as `align` says. -/
def orgLine (align : Nat → List Char → List Char) (widths : List Nat) (cells : List (List Char)) :
    List Char :=
  let filled := match cells.zip widths with
    | [] => []
    | (label, w) :: rest =>
      Text.leftAligned w label :: rest.map fun (cell, w) => align w cell
  '|' :: filled.flatMap (fun cell => ' ' :: cell ++ [' ', '|']) ++ ['\n']

/-- The rule under the headings. -/
def orgRule (widths : List Nat) : List Char :=
  '|' :: ['+'].intercalate (widths.map fun w => List.replicate (w + 2) '-') ++ ['|', '\n']

/-- The table in Org text. -/
def org (t : Table) : String :=
  let header := (t.nameColumn :: t.headers).map orgCell
  let body := t.rows.map fun row => (row.label :: row.values).map orgCell
  let widths := body.foldl widen (header.map List.length)
  String.ofList <|
    "#+CAPTION: ".toList ++ t.title.toList ++ "\n#+NAME: ".toList ++ t.dataRef.toList ++ '\n' ::
      orgLine Text.leftAligned widths header ++ orgRule widths ++
      body.flatMap (orgLine Text.rightAligned widths)

/-!
## LaTeX

A floating table with caption, label, headings and one line for each row.
Every text of the table is escaped, so no cell can end a cell or a row.
-/

/-- Cells joined into one row. -/
def latexRow (cells : List String) : List Char :=
  " & ".toList.intercalate (cells.map fun cell => Latex.escapeChars cell.toList) ++
    " \\\\\n".toList

/-- The table in LaTeX. -/
def latex (t : Table) : String :=
  String.ofList <|
    "\\begin\x7btable\x7d[ht]\n\\centering\n\\caption\x7b".toList ++
      Latex.escapeChars t.title.toList ++ "\x7d\n\\label\x7btab:".toList ++
      Latex.escapeChars t.dataRef.toList ++ "\x7d\n\\begin\x7btabular\x7d\x7bl".toList ++
      List.replicate t.headers.length 'r' ++ "\x7d\n\\hline\n".toList ++
      latexRow (t.nameColumn :: t.headers) ++ "\\hline\n".toList ++
      t.rows.flatMap (fun row => latexRow (row.label :: row.values)) ++
      "\\hline\n\\end\x7btabular\x7d\n\\end\x7btable\x7d\n".toList

/-!
## Plain text

The title underlined, the headings, and one line for each row. Labels stand at
the left, values at the right of their columns, two spaces apart. Blanks at the
end of a line are left out.
-/

/-- Widths of the columns in plain text, that of the labels first. -/
def plainWidths (t : Table) : List Nat := t.labelWidth :: t.valueWidths

/-- A line before its trailing blanks are cut: the label and the values. -/
def plainLine (labelWidth : Nat) (widths : List Nat) (label : String) (values : List String) :
    List Char :=
  Text.leftAligned labelWidth label.toList ++
    ((values.zip widths).map fun (value, w) =>
      ' ' :: ' ' :: Text.rightAligned w value.toList).flatten

/-- A line as it is written. -/
def plainText (line : List Char) : List Char := Text.trimEnd line ++ ['\n']

/-- The table in plain text. -/
def plain (t : Table) : String :=
  let line := plainLine t.labelWidth t.valueWidths
  String.ofList <|
    t.title.toList ++ '\n' :: List.replicate t.title.length '=' ++ '\n' ::
      plainText (line t.nameColumn t.headers) ++
      t.rows.flatMap fun row => plainText (line row.label row.values)

end RunReport.Table
