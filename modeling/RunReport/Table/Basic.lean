import RunReport.Section.Basic

/-!
# Tables

A table has one row for each field and one column of values for each run,
whatever format it is written in. It is made from the sections of several
runs by turning rows into columns; every run must show the same fields in the
same order.
-/

namespace RunReport

/-- One row of a table. -/
structure TableRow where
  /-- Label of the row. -/
  label : String
  /-- One value for each column. -/
  values : List String
  /-- Least width of the values. -/
  width : Nat
  deriving DecidableEq

/-- A table without a format. -/
structure Table where
  /-- Title of the table. -/
  title : String
  /-- Key of the table. -/
  dataRef : String
  /-- Heading of the labels. -/
  nameColumn : String
  /-- Heading of each column of values. -/
  headers : List String
  /-- The rows. -/
  rows : List TableRow
  deriving DecidableEq

namespace Section

/-- Names of the fields shown, in order. -/
def fieldNames (s : Section) : List String := s.rows.map (·.field)

/-- The value in a row; none beyond the last. -/
def valueAt (s : Section) (i : Nat) : String :=
  match s.rows[i]? with
  | some row => row.value
  | none => ""

end Section

namespace Table

/-- The first name in which a list differs from an expected one of which
neither has an end before. -/
def firstStranger : List String → List String → Option String
  | expected :: rest, found :: others =>
    if expected = found then firstStranger rest others else some found
  | _, _ => none

/-- How a section departs from the field names of the first: by a name, or by
the number of its rows. -/
def departure? (expected : List String) (s : Section) : Option String :=
  match firstStranger expected s.fieldNames with
  | some found => some found
  | none =>
    if s.rows.length = expected.length then none
    else some ("<" ++ Digits.text s.rows.length ++ " rows>")

/-- The first of the sections that departs from the expected field names, as a failure. -/
def firstDeparture (dataRef : String) (expected : List String) :
    List RunSection → Option Failure
  | [] => none
  | column :: rest => match departure? expected column.content with
    | some found => some (.unknownField found
        (some ("run '" ++ column.tag ++ "' of section '" ++ dataRef ++ "'")))
    | none => firstDeparture dataRef expected rest

/-- The table of sections that all show the same fields. Labels and widths are
those of the first run. -/
def ofAligned (plan : SectionPlan) (first : RunSection) (columns : List RunSection) : Table :=
  { title := plan.title
    dataRef := plan.dataRef
    nameColumn := plan.nameColumn
    headers := columns.map fun column => plan.valueColumn ++ " (" ++ column.tag ++ ")"
    rows := first.content.rows.mapIdx fun i row =>
      ⟨row.label, columns.map fun column => column.content.valueAt i, row.width⟩ }

/-- The table of a set of sections. -/
def transpose (set : SectionSet) : Except Failure Table :=
  match set.columns with
  | [] => .error (.emptyRunSet ("section '" ++ set.plan.dataRef ++ "' has no runs"))
  | first :: others =>
    match firstDeparture set.plan.dataRef first.content.fieldNames others with
    | some failure => .error failure
    | none => .ok (ofAligned set.plan first (first :: others))

/-- Width of the column of labels: the widest label or heading. -/
def labelWidth (t : Table) : Nat :=
  t.rows.foldl (fun w row => max w row.label.length) t.nameColumn.length

/-- Width of a column of values: the widest heading or value, and no less than
any row asks for. -/
def valueWidth (t : Table) (i : Nat) (header : String) : Nat :=
  t.rows.foldl (fun w row => max w (max ((row.values[i]?.map (·.length)).getD 0) row.width))
    header.length

/-- Widths of the columns of values. -/
def valueWidths (t : Table) : List Nat := t.headers.mapIdx fun i header => t.valueWidth i header

end Table

end RunReport
