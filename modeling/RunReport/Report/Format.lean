import RunReport.Table.Writing

/-!
# Output formats

A report is written in Org, LaTeX or plain text. A format has a name, a file
extension and a way to write tables; two of them also go by their extension
when they are asked for.

Org text and plain text fill every cell up to the width of its column, and there is
a width beyond which no cell can be filled: a table with a wider column ends the
program. LaTeX does not fill its cells.
-/

namespace RunReport

/-- The greatest width that a cell can be filled to. -/
def fillLimit : Nat := 65535

/-- A format in which a report is written. -/
inductive OutputFormat where
  /-- Org text. -/
  | org
  /-- LaTeX. -/
  | latex
  /-- Plain text. -/
  | text
  deriving DecidableEq

namespace OutputFormat

/-- Every format, in the order in which a report has them by default. -/
def all : List OutputFormat := [org, latex, text]

/-- No format is left out. -/
theorem mem_all (format : OutputFormat) : format ∈ all := by cases format <;> decide

/-- The name of a format. -/
def name : OutputFormat → String
  | org => "org"
  | latex => "latex"
  | text => "text"

/-- The extension of a format's files. -/
def extension : OutputFormat → String
  | org => "org"
  | latex => "tex"
  | text => "txt"

/-- A table in a format. -/
def table : OutputFormat → Table → String
  | org => Table.org
  | latex => Table.latex
  | text => Table.plain

/-- Widths that a format fills the cells of a table to. -/
def filledWidths : OutputFormat → Table → List Nat
  | org => Table.orgWidths
  | latex => fun _ => []
  | text => Table.plainWidths

/-- Whether a table has a column that cannot be filled. -/
def overruns (format : OutputFormat) (t : Table) : Bool :=
  (format.filledWidths t).any (fillLimit < ·)

/-- What comes of writing a table in a format. -/
def write (format : OutputFormat) (t : Table) : Except Halt String :=
  if format.overruns t then .error .crashed else .ok (format.table t)

/-- The format of exactly the given name. -/
def ofName? (s : String) : Option OutputFormat := all.find? (·.name = s)

/-- A text with its ASCII letters in lower case. -/
def lowerCase (s : String) : String := String.ofList (s.toList.map Char.toLower)

/-- The format that a text asks for: a name or an extension in any case. -/
def asked? (s : String) : Option OutputFormat :=
  all.find? fun format => format.name = lowerCase s || format.extension = lowerCase s

end OutputFormat

/-- One value for each format. -/
structure PerFormat (α : Type) where
  /-- The value for Org text. -/
  org : α
  /-- The value for LaTeX. -/
  latex : α
  /-- The value for plain text. -/
  text : α
  deriving DecidableEq

namespace PerFormat

variable {α : Type}

/-- The value for a format. -/
def get (values : PerFormat α) : OutputFormat → α
  | .org => values.org
  | .latex => values.latex
  | .text => values.text

/-- The values with another one for a format. -/
def set (values : PerFormat α) (format : OutputFormat) (value : α) : PerFormat α :=
  match format with
  | .org => { values with org := value }
  | .latex => { values with latex := value }
  | .text => { values with text := value }

/-- Values are the same if they are so for each format. -/
theorem ext_get {values others : PerFormat α}
    (same : ∀ format, values.get format = others.get format) : values = others := by
  obtain ⟨org, latex, text⟩ := values
  obtain ⟨org', latex', text'⟩ := others
  obtain rfl : org = org' := same .org
  obtain rfl : latex = latex' := same .latex
  obtain rfl : text = text' := same .text
  rfl

/-- A value that is set is that of its format alone. -/
theorem get_set (values : PerFormat α) (format : OutputFormat) (value : α)
    (other : OutputFormat) :
    (values.set format value).get other = if other = format then value else values.get other := by
  cases format <;> cases other <;> rfl

end PerFormat

end RunReport
