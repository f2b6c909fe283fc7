import RunReport.Command.Arguments
import RunReport.Report.Format
import RunReport.Time.Text

/-!
# Requests

A command line asks for a report, for a merge of tables or for the version of
the tool. What cannot be read as one of these is a misuse.
-/

namespace RunReport

/-- What is asked of a report. -/
structure ReportRequest where
  /-- File of the run under test. -/
  base : String
  /-- Files of the runs to compare with. -/
  comparisons : List String := []
  /-- Formats to write. -/
  formats : List OutputFormat := []
  /-- Directory that receives the files. -/
  outputDir : Option String := none
  /-- Settings file. -/
  settings : Option String := none
  /-- Author of the report. -/
  author : Option String := none
  /-- Date of the report. -/
  date : Option Timestamp := none
  /-- Dictionary file. -/
  dictionary : Option String := none
  /-- Templates, each a format, an equals sign and a file. -/
  templates : List String := []
  /-- Whether the context and the template are written as well. -/
  emitContext : Bool := false
  deriving DecidableEq

/-- A table of distributions that can be merged. -/
inductive MergeTable where
  /-- The distributions over the machines. -/
  | machines
  /-- The distributions of block propagation. -/
  | propagation
  deriving DecidableEq

/-- What is asked of a merge. -/
structure MergeRequest where
  /-- Files of the runs. -/
  inputs : List String
  /-- The table that is merged. -/
  table : MergeTable := .machines
  /-- File that receives the result. -/
  output : Option String := none
  deriving DecidableEq

/-- What a command line asks for. -/
inductive Request where
  /-- A report. -/
  | report (r : ReportRequest)
  /-- A merge. -/
  | merge (m : MergeRequest)
  /-- The version of the tool. -/
  | version
  deriving DecidableEq

namespace Request

/-- A path is never empty. -/
def path? (text : String) : Option String := if text.isEmpty then none else some text

/-- A value that is read in a given way, if it is given. -/
def optional {α : Type} (read : String → Option α) : Option String → Option (Option α)
  | none => some none
  | some text => (read text).map some

/-- The options of a report. -/
def reportOptions : List OptionSpec :=
  [⟨"base", none, true⟩, ⟨"compare", none, true⟩, ⟨"format", some 'f', true⟩,
    ⟨"output-dir", some 'o', true⟩, ⟨"config", some 'c', true⟩, ⟨"author", none, true⟩,
    ⟨"date", none, true⟩, ⟨"dictionary", none, true⟩, ⟨"template", none, true⟩,
    ⟨"emit-context", none, false⟩]

/-- The request for a report. -/
def report? (words : List String) : Option ReportRequest := do
  let a ← Arguments.read reportOptions words
  if !a.operands.isEmpty then none
  let base ← (← a.atMostOne "base").bind path?
  let comparisons ← (a.values "compare").mapM path?
  let formats ← ((a.values "format").flatMap (Split.textParts ',')).mapM OutputFormat.asked?
  let outputDir ← optional path? (← a.atMostOne "output-dir")
  let settings ← optional path? (← a.atMostOne "config")
  let author ← a.atMostOne "author"
  let date ← optional Timestamp.ofText? (← a.atMostOne "date")
  let dictionary ← optional path? (← a.atMostOne "dictionary")
  let emitContext ← a.atMostOne "emit-context"
  return { base, comparisons, formats, outputDir, settings, author, date, dictionary
           templates := a.values "template", emitContext := emitContext.isSome }

/-- The options of a merge. -/
def mergeOptions : List OptionSpec :=
  [⟨"table", none, true⟩, ⟨"output", some 'o', true⟩]

/-- The table of a name. -/
def table? : String → Option MergeTable
  | "machperf" => some .machines
  | "blockprop" => some .propagation
  | _ => none

/-- The request for a merge. -/
def merge? (words : List String) : Option MergeRequest := do
  let a ← Arguments.read mergeOptions words
  if a.operands.isEmpty then none
  let inputs ← a.operands.mapM path?
  let table ← optional table? (← a.atMostOne "table")
  let output ← optional path? (← a.atMostOne "output")
  return { inputs, table := table.getD .machines, output }

/-- Whether a first word asks for the version, whatever follows. -/
def asksVersion (word : String) : Bool :=
  word = "--version" || "-V".toList.isPrefixOf word.toList

/-- What a command line asks for. -/
def ofWords? : List String → Option Request
  | [] => none
  | word :: rest =>
    if asksVersion word then some .version
    else match word with
      | "report" => (report? rest).map .report
      | "merge" => (merge? rest).map .merge
      | _ => none

end Request

end RunReport
