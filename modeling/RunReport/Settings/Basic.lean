import RunReport.Report.Context
import RunReport.Report.Format
import RunReport.Yaml.Document

/-!
# Settings

What a settings file may say: author, tool version, formats, directory,
templates, dictionary and charted keys. Every setting may be absent. An
unknown or repeated setting is refused, and so is a value of the wrong form.
-/

namespace RunReport

/-- The settings of a report. -/
structure Settings where
  /-- Author of the report. -/
  author : Option String := none
  /-- Version to show instead of the tool's own. -/
  toolVersion : Option String := none
  /-- Formats to write. -/
  formats : List OutputFormat := []
  /-- Directory that receives the files. -/
  outputDir : Option String := none
  /-- Template file for each format. -/
  templates : PerFormat (Option String) := ⟨none, none, none⟩
  /-- Dictionary file. -/
  dictionary : Option String := none
  /-- Metrics charted for the performance of the cluster. -/
  clusterPerformance : Option (List String) := none
  /-- Metrics charted for the propagation of blocks. -/
  blockPropagation : Option (List String) := none
  deriving DecidableEq

namespace Settings

/-- The metrics that are charted: the standard ones unless set otherwise. -/
def chartKeys (s : Settings) : ChartKeys :=
  ⟨s.clusterPerformance.getD clusterPerformanceKeys, s.blockPropagation.getD blockPropagationKeys⟩

/-- The text of a scalar, quoted or not. -/
def textOf : Yaml → Option String
  | .scalar _ text => some text
  | _ => none

/-- A value that may be `null`. -/
def optional {α : Type} (read : Yaml → Option α) (node : Yaml) : Option (Option α) :=
  if node.isNull then some none else (read node).map some

/-- The items of a list; an absent value is the empty list. -/
def itemsOf : Yaml → Option (List Yaml)
  | .sequence items => some items
  | .scalar true "" => some []
  | _ => none

/-- A list of texts. -/
def textsOf (node : Yaml) : Option (List String) := do (← itemsOf node).mapM textOf

/-- The entries of a map whose keys are texts; an absent value is the empty map. -/
def entriesOf : Yaml → Option (List (String × Yaml))
  | .mapping entries => entries.mapM fun (key, value) => (textOf key).map (·, value)
  | .scalar true "" => some []
  | _ => none

/-- The entries of a map without a repeated key. -/
def distinctEntriesOf (node : Yaml) : Option (List (String × Yaml)) := do
  let entries ← entriesOf node
  if (entries.map (·.1)).Nodup then some entries else none

/-- The template files by format; of two for one format the later wins. -/
def templatesOf (node : Yaml) : Option (PerFormat (Option String)) := do
  (← entriesOf node).foldlM (fun files (key, value) => do
    let format ← OutputFormat.ofName? key
    let path ← textOf value
    some (files.set format (some path))) ⟨none, none, none⟩

/-- The settings with one more of the charted keys. -/
def withChart (s : Settings) (entry : String × Yaml) : Option Settings :=
  match entry with
  | ("cluster_perf", node) =>
    (optional textsOf node).map fun keys => { s with clusterPerformance := keys }
  | ("block_prop", node) =>
    (optional textsOf node).map fun keys => { s with blockPropagation := keys }
  | _ => none

/-- The settings with one more of the entries of a settings file. -/
def withEntry (s : Settings) (entry : String × Yaml) : Option Settings :=
  match entry with
  | ("author", node) => (optional textOf node).map fun author => { s with author }
  | ("tool_version", node) => (optional textOf node).map fun toolVersion => { s with toolVersion }
  | ("formats", node) => do
    let formats ← (← textsOf node).mapM OutputFormat.ofName?
    some { s with formats }
  | ("output_dir", node) => (optional textOf node).map fun outputDir => { s with outputDir }
  | ("templates", node) => (templatesOf node).map fun templates => { s with templates }
  | ("dictionary", node) => (optional textOf node).map fun dictionary => { s with dictionary }
  | ("charts", node) => do (← distinctEntriesOf node).foldlM withChart s
  | _ => none

/-- The settings that a text holds. -/
def parse (text : String) : Option Settings := do
  (← distinctEntriesOf (← Yaml.parse text)).foldlM withEntry {}

end Settings

end RunReport
