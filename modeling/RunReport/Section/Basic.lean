import RunReport.Metric.Registry
import RunReport.Run.Basic

/-!
# Sections

A section shows chosen fields of one table of a run, one row for each field in
the order of the registry. A plan says which fields and under which names; it
does not depend on a run. Building a section fails on the first field that the
run's table does not hold in the field's kind.

A layout is a list of section plans. No two of them may share a key or a file, and
no section may take the key of the table that lists the runs.
-/

namespace RunReport

/-- What a section shows and how it is called. -/
structure SectionPlan where
  /-- Title of the section. -/
  title : String
  /-- Heading of the labels. -/
  nameColumn : String := "Metric"
  /-- Heading of the values. -/
  valueColumn : String := "Average"
  /-- Key under which every format offers the table. -/
  dataRef : String
  /-- Stem of the table's own file. -/
  targetFile : String
  /-- Table that is read. -/
  category : Category
  /-- Fields that are shown. -/
  selector : Selector

/-- One field of one run, ready to be shown. -/
structure Row where
  /-- Name of the field. -/
  field : String
  /-- Label of the row. -/
  label : String
  /-- Value as text. -/
  value : String
  /-- Least width of the value. -/
  width : Nat
  deriving DecidableEq

/-- The rows of one run under the names of a section. -/
structure Section where
  /-- Title of the section. -/
  title : String
  /-- Heading of the labels. -/
  nameColumn : String
  /-- Heading of the values. -/
  valueColumn : String
  /-- Key of the table. -/
  dataRef : String
  /-- Stem of the table's own file. -/
  targetFile : String
  /-- The rows. -/
  rows : List Row
  deriving DecidableEq

/-- A section and the tag of its run. -/
structure RunSection where
  /-- Tag of the run. -/
  tag : String
  /-- The section of that run. -/
  content : Section
  deriving DecidableEq

/-- The sections of several runs that follow one plan. -/
structure SectionSet where
  /-- The plan. -/
  plan : SectionPlan
  /-- One section for each run, in run order. -/
  columns : List RunSection

/-- The normal form of a title in file names: its ASCII letters and digits in lower case, with
one dash for all that stands between two of them. -/
def slug (title : String) : String :=
  String.ofList (finish (title.toList.foldl write []))
where
  /-- What is written, the last character first, once a character more is read. A letter or
  digit is written in lower case, anything else as a dash. A dash is left out at the start and
  behind another one. -/
  write (written : List Char) (c : Char) : List Char :=
    if c.isAlphanum then c.toLower :: written
    else match written with
      | [] => []
      | last :: _ => if last = '-' then written else '-' :: written
  /-- What was written, the first character first, without a dash at its end. -/
  finish (written : List Char) : List Char := (written.dropWhile (· = '-')).reverse

namespace Field

/-- The value of a field in a run's table, as text. A table that does not hold
the field in its kind is named by `place`. -/
def shownValue (f : Field) (run : Run) (category : Category) (place : String) :
    Except Failure String :=
  match f.kind with
  | .instant => match run.instant? category f.name with
    | some x => x.fixed? f.precision
    | none => .error (.unknownField f.name place)
  | .distributional shown => match run.distribution? category f.name with
    | some d => d.statisticText shown f.precision
    | none => .error (.unknownField f.name place)

/-- The row that shows a field. -/
def row (f : Field) (run : Run) (category : Category) (place : String) : Except Failure Row :=
  (f.shownValue run category place).map fun value => ⟨f.name, f.label, value, f.width⟩

end Field

namespace Registry

/-- The rows of a run for the chosen fields of a category, in declaration order. -/
def rows (r : Registry) (run : Run) (category : Category) (selector : Selector)
    (place : String) : Except Failure (List Row) :=
  ((r.fieldsFor category).filter selector.selects).mapM fun f => f.row run category place

end Registry

/-- The section of a run for the chosen fields of a category, its key and file
being named after its title. -/
def Section.build (r : Registry) (run : Run) (category : Category) (selector : Selector)
    (title nameColumn valueColumn : String) : Except Failure Section :=
  (r.rows run category selector category.name).map fun rows =>
    ⟨title, nameColumn, valueColumn, slug title, slug title, rows⟩

/-- The failure with an unknown field found to be missing in another place. -/
def Failure.missingIn (place : String) : Failure → Failure
  | .unknownField name _ => .unknownField name place
  | other => other

namespace SectionPlan

/-- A plan with the usual headings, its file being named after its key. -/
def ofKey (title dataRef : String) (category : Category) (selector : Selector) : SectionPlan :=
  { title, dataRef, targetFile := dataRef, category, selector }

/-- The fields that a section shows, in declaration order. -/
def fields (plan : SectionPlan) (r : Registry) : List Field :=
  (r.fieldsFor plan.category).filter plan.selector.selects

/-- The section of one run, with the key and the file of the plan. What the run does
not hold is missing in the table of that run. -/
def build (plan : SectionPlan) (r : Registry) (run : Run) : Except Failure Section :=
  ((Section.build r run plan.category plan.selector plan.title plan.nameColumn
      plan.valueColumn).mapError
        (.missingIn (plan.category.name ++ " of run '" ++ run.tag ++ "'"))).map fun s =>
    { s with dataRef := plan.dataRef, targetFile := plan.targetFile }

/-- The sections of several runs, in run order. -/
def buildRuns (plan : SectionPlan) (r : Registry) (runs : List Run) :
    Except Failure SectionSet :=
  (runs.mapM fun run => (plan.build r run).map (RunSection.mk run.tag)).map (SectionSet.mk plan)

end SectionPlan

namespace Layout

/-- Key of the table that lists the runs. -/
def manifestKey : String := "manifest"

/-- The first earlier plan with the same member. -/
def holder? (earlier : List SectionPlan) (member : SectionPlan → String) (plan : SectionPlan) :
    Option SectionPlan :=
  earlier.find? fun other => member other = member plan

/-- Why a plan may not follow the earlier ones: a reserved key, then a key
that is taken, then a file that is taken. -/
def clash? (earlier : List SectionPlan) (plan : SectionPlan) : Option Failure :=
  if plan.dataRef = manifestKey then
    some (.sectionCollision "data_ref" plan.dataRef "the run manifest")
  else match holder? earlier (·.dataRef) plan with
    | some first =>
      some (.sectionCollision "data_ref" plan.dataRef ("section '" ++ first.title ++ "'"))
    | none => (holder? earlier (·.targetFile) plan).map fun first =>
      .sectionCollision "target_file" plan.targetFile ("section '" ++ first.title ++ "'")

/-- Checks plans that follow earlier ones. -/
def checkAfter (earlier : List SectionPlan) : List SectionPlan → Except Failure Unit
  | [] => .ok ()
  | plan :: rest => match clash? earlier plan with
    | some failure => .error failure
    | none => checkAfter (earlier ++ [plan]) rest

/-- Accepts a layout without clashes. -/
def check (plans : List SectionPlan) : Except Failure Unit := checkAfter [] plans

/-- The section of values of the run as a whole. -/
def standardSummary : SectionPlan :=
  { SectionPlan.ofKey "Run summary" "summary" .summary (Selector.group .run) with
    nameColumn := "Parameter", valueColumn := "Value" }

/-- The sections of distributions, in report order. -/
def standardAnalyses : List SectionPlan :=
  [SectionPlan.ofKey "Resource Usage" "resources" .machinePerformance (Selector.group .resource),
    SectionPlan.ofKey "Forging" "forging" .machinePerformance (Selector.group .forging),
    SectionPlan.ofKey "Peer propagation" "peers" .blockPropagation
      (Selector.group .peerPropagation),
    SectionPlan.ofKey "End-to-end propagation" "endtoend" .blockPropagation
      (Selector.group .endToEnd)]

end Layout

end RunReport
