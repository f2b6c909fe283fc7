import RunReport.Metric.Catalogue
import RunReport.Report.Context
import RunReport.Template.Basic
import RunReport.Template.Standard

/-!
# Rendering and generating a report

In each format the context is extended by the tables of the format: one under the key
of each section, one that lists the runs, and the join of all but the summary. In
LaTeX the texts of the context are escaped; tables are text of the format already. The
template is then filled in from the extended context.

A report is assembled once and rendered in each format that is asked for. The layout
is checked before any run is looked at. What is refused ends the whole batch, and so
does a table that cannot be filled.
-/

namespace RunReport

/-- The table that lists the runs of a context, the base run first. -/
def Context.manifest (c : Context) : Table :=
  let runs := c.base :: c.runs
  let row (label : String) (value : RunIdentity → String) : TableRow := ⟨label, runs.map value, 1⟩
  { title := "Runs"
    dataRef := Layout.manifestKey
    nameColumn := "Run"
    headers := runs.map (·.tag)
    rows := [row "Component" (·.name), row "Version" (·.version), row "Branch" (·.branch),
      row "Revision" (·.shortRevision), row "Workload" (·.workloadTitle),
      row "Profile" (·.profile), row "Era" (·.era), row "Batch" (·.batch),
      row "Date" (·.timestamp)] }

/-- A file that holds one table. -/
structure TableFile where
  /-- Name of the file. -/
  filename : String
  /-- Its text. -/
  text : String
  deriving DecidableEq

/-- A report in one format and what it was made from. -/
structure Rendered where
  /-- The format. -/
  format : OutputFormat
  /-- Name of the report's file. -/
  filename : String
  /-- Text of the report. -/
  text : String
  /-- The tables as files of their own. -/
  tables : List TableFile
  /-- The template. -/
  templateSource : String
  /-- The extended context as text. -/
  contextJson : String
  deriving DecidableEq

namespace Rendered

/-- The tables of sections as text, each with its section's plan. -/
def tableTexts (format : OutputFormat) :
    List SectionSet → Except Halt (List (SectionPlan × String))
  | [] => .ok []
  | set :: rest => do
    let table ← (Table.transpose set).mapError .refused
    let text ← format.write table
    let others ← tableTexts format rest
    return (set.plan, text) :: others

/-- The context as a template in the given format sees it, without tables. -/
def contextTree (format : OutputFormat) (c : Context) : Json :=
  match format with
  | .latex => c.toJson.mapStrings Latex.escape
  | .org => c.toJson
  | .text => c.toJson

/-- Tables by key: the list of runs and then the sections. -/
def tableMembers (manifest : String) (texts : List (SectionPlan × String)) :
    List (String × Json) :=
  texts.foldl (fun members (plan, text) => Json.upsert plan.dataRef (.string text) members)
    [(Layout.manifestKey, .string manifest)]

/-- The tables of every section but the summary, joined by an empty line. -/
def joinedTables (c : Context) (texts : List (SectionPlan × String)) : String :=
  "\n".intercalate ((texts.filter fun (plan, _) => plan.dataRef ≠ c.summary.dataRef).map (·.2))

/-- The context with the tables of a format. -/
def tree (format : OutputFormat) (c : Context) (manifest : String)
    (texts : List (SectionPlan × String)) : Json :=
  (((contextTree format c).set "tables" (.object (tableMembers manifest texts))).set "tables_all"
    (.string (joinedTables c texts))).set "format" (.string format.name)

/-- Name of the file of a report. -/
def reportFile (format : OutputFormat) (c : Context) : String :=
  "report-" ++ c.base.fileToken ++ "." ++ format.extension

/-- The report on a context and its sections in one format. -/
def render (format : OutputFormat) (template : String) (c : Context) (sets : List SectionSet) :
    Except Halt Rendered := do
  (Layout.check (sets.map (·.plan))).mapError .refused
  let manifest ← format.write c.manifest
  let texts ← tableTexts format sets
  let tree := tree format c manifest texts
  let text ← (Template.render template tree).mapError fun fault =>
    .refused (.templateError format.name fault.message)
  return {
    format
    filename := reportFile format c
    text
    tables := texts.map fun (plan, text) => ⟨plan.targetFile ++ "." ++ format.extension, text⟩
    templateSource := template
    contextJson := tree.pretty }

end Rendered

/-- What a report shows, whatever the runs. -/
structure ReportPlan where
  /-- Fields of the metrics. -/
  registry : Registry
  /-- Definitions of the metrics. -/
  dictionary : Dictionary
  /-- Section of the run as a whole. -/
  summary : SectionPlan := Layout.standardSummary
  /-- Sections of distributions. -/
  analyses : List SectionPlan := Layout.standardAnalyses
  /-- Metrics that are charted. -/
  chartKeys : ChartKeys := {}
  /-- A template for each format. -/
  templates : PerFormat String := Template.standard

namespace ReportPlan

/-- The standard report: the catalogue, the dictionary that follows from it,
the standard sections and the standard templates. -/
def standard : ReportPlan :=
  { registry := Registry.standard, dictionary := Dictionary.ofRegistry Registry.standard }

/-- The plans of all sections, the summary first. -/
def layout (plan : ReportPlan) : List SectionPlan := plan.summary :: plan.analyses

/-- The context of the report on a base run and the runs it is compared with. -/
def context (plan : ReportPlan) (identity : Identity) (base : Run) (comparisons : List Run) :
    Except Failure Context :=
  Context.assemble plan.registry plan.dictionary plan.chartKeys identity base comparisons
    plan.summary plan.analyses

/-- The sections of the base run and the runs it is compared with. -/
def sets (plan : ReportPlan) (base : Run) (comparisons : List Run) :
    Except Failure (List SectionSet) :=
  plan.layout.mapM fun part => part.buildRuns plan.registry (base :: comparisons)

/-- The report on a base run and the runs it is compared with, in each of the
given formats. -/
def generate (plan : ReportPlan) (identity : Identity) (base : Run) (comparisons : List Run)
    (formats : List OutputFormat) : Except Halt (List Rendered) := do
  (Layout.check plan.layout).mapError .refused
  let context ← (plan.context identity base comparisons).mapError .refused
  let sets ← (plan.sets base comparisons).mapError .refused
  formats.mapM fun format => Rendered.render format (plan.templates.get format) context sets

end ReportPlan

end RunReport
