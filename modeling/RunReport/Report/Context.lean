import RunReport.Metric.Dictionary
import RunReport.Run.Json
import RunReport.Section.Basic

/-!
# Report contexts

A context is all that a template can show besides tables: the identity of the
report and of its runs, what the sections show, the dictionary and the
definitions that the charts refer to. Assembling one requires a run to compare
with, and a definition of every metric that is shown or charted.
-/

namespace RunReport

/-- Who made a report, with which tool, and when. -/
structure Identity where
  /-- Author of the report. -/
  author : String
  /-- Version of the tool. -/
  toolVersion : String
  /-- Date of the report. -/
  date : Timestamp
  deriving DecidableEq

/-- The head of a report. -/
structure ReportHead where
  /-- Title. -/
  title : String
  /-- Author. -/
  author : String
  /-- Date as text. -/
  date : String
  /-- Version of the tool. -/
  toolVersion : String
  /-- Version of the component in the base run. -/
  target : String
  /-- Tags of all runs. -/
  tag : String
  deriving DecidableEq

/-- The identity of a run as templates show it. -/
structure RunIdentity where
  /-- Short identifier. -/
  tag : String
  /-- Batch that the run belongs to. -/
  batch : String
  /-- Profile of the benchmark. -/
  profile : String
  /-- Ledger era. -/
  era : String
  /-- Start of the run as text. -/
  timestamp : String
  /-- Name of the component. -/
  name : String
  /-- Branch it was built from. -/
  branch : String
  /-- Hash of its revision. -/
  revision : String
  /-- First characters of the revision. -/
  shortRevision : String
  /-- Version that it reports. -/
  version : String
  /-- Class of the workload. -/
  workload : Workload
  /-- Title of the workload. -/
  workloadTitle : String
  /-- The workload in file names. -/
  fileToken : String
  deriving DecidableEq

namespace RunIdentity

/-- The identity of a run. -/
def ofRun (run : Run) : RunIdentity :=
  let m := run.metadata
  let workload := m.workload
  { tag := m.tag
    batch := m.batch
    profile := m.profile
    era := m.era
    timestamp := m.timestamp.secondsText
    name := m.manifest.name
    branch := m.manifest.branch
    revision := m.manifest.revision
    shortRevision := m.manifest.shortRevision
    version := m.manifest.version
    workload
    workloadTitle := workload.title
    fileToken := workload.fileToken }

/-- The identity as an object. -/
def toJson (r : RunIdentity) : Json :=
  .object [("tag", .string r.tag), ("batch", .string r.batch), ("profile", .string r.profile),
    ("era", .string r.era), ("timestamp", .string r.timestamp), ("name", .string r.name),
    ("branch", .string r.branch), ("revision", .string r.revision),
    ("short_revision", .string r.shortRevision), ("version", .string r.version),
    ("workload", .string r.workload.word), ("workload_title", .string r.workloadTitle),
    ("file_infix", .string r.fileToken)]

end RunIdentity

/-- A field as templates show it. -/
structure FieldDescription where
  /-- Identifier. -/
  name : String
  /-- What the dictionary would say about the field. -/
  definition : Definition
  /-- Least width of its values. -/
  width : Nat
  deriving DecidableEq

namespace FieldDescription

/-- The description of a field. -/
def ofField (f : Field) : FieldDescription := ⟨f.name, Definition.ofField f, f.width⟩

/-- The description as an object. -/
def toJson (f : FieldDescription) : Json :=
  let d := f.definition
  .object [("name", .string f.name), ("short_desc", .string d.shortDescription),
    ("description", .string d.description), ("unit", .string d.unit),
    ("precision", .integer d.precision), ("width", .integer f.width), ("kind", .string d.kind)]

end FieldDescription

/-- A section as templates show it. -/
structure SectionDescription where
  /-- Title of the section. -/
  title : String
  /-- Heading of the labels. -/
  nameColumn : String
  /-- Heading of the values. -/
  valueColumn : String
  /-- Key of the table. -/
  dataRef : String
  /-- Stem of the table's own file. -/
  targetFile : String
  /-- The fields shown, in order. -/
  fields : List FieldDescription
  deriving DecidableEq

namespace SectionDescription

/-- The description of a planned section. -/
def ofPlan (plan : SectionPlan) (r : Registry) : SectionDescription :=
  ⟨plan.title, plan.nameColumn, plan.valueColumn, plan.dataRef, plan.targetFile,
    (plan.fields r).map FieldDescription.ofField⟩

/-- The description as an object. -/
def toJson (s : SectionDescription) : Json :=
  .object [("title", .string s.title), ("name_column", .string s.nameColumn),
    ("value_column", .string s.valueColumn), ("data_ref", .string s.dataRef),
    ("target_file", .string s.targetFile),
    ("fields", .array (s.fields.map FieldDescription.toJson))]

end SectionDescription

/-- Keys of the metrics that are charted. -/
structure ChartKeys where
  /-- Keys for the performance of the cluster. -/
  clusterPerformance : List String := clusterPerformanceKeys
  /-- Keys for the propagation of blocks. -/
  blockPropagation : List String := blockPropagationKeys
  deriving DecidableEq

/-- Definitions of the metrics that are charted. -/
structure Charts where
  /-- Definitions for the performance of the cluster. -/
  clusterPerformance : List DictionaryEntry
  /-- Definitions for the propagation of blocks. -/
  blockPropagation : List DictionaryEntry
  deriving DecidableEq

/-- The definitions as an object. -/
def Charts.toJson (c : Charts) : Json :=
  .object [("cluster_perf", .array (c.clusterPerformance.map DictionaryEntry.toJson)),
    ("block_prop", .array (c.blockPropagation.map DictionaryEntry.toJson))]

/-- All that a template can show besides tables. -/
structure Context where
  /-- Head of the report. -/
  report : ReportHead
  /-- The run under test. -/
  base : RunIdentity
  /-- The runs that it is compared with. -/
  runs : List RunIdentity
  /-- Section of the run as a whole. -/
  summary : SectionDescription
  /-- Sections of distributions. -/
  analyses : List SectionDescription
  /-- Definitions of the metrics. -/
  dictionary : Dictionary
  /-- Definitions of what is charted. -/
  charts : Charts

namespace Context

/-- The head of a report as an object. -/
def headJson (h : ReportHead) : Json :=
  .object [("title", .string h.title), ("author", .string h.author), ("date", .string h.date),
    ("tool_version", .string h.toolVersion), ("target", .string h.target), ("tag", .string h.tag)]

/-- A context as an object. -/
def toJson (c : Context) : Json :=
  .object [("report", headJson c.report), ("base", c.base.toJson),
    ("runs", .array (c.runs.map RunIdentity.toJson)), ("summary", c.summary.toJson),
    ("analyses", .array (c.analyses.map SectionDescription.toJson)),
    ("dictionary", c.dictionary.toJson), ("charts", c.charts.toJson)]

/-- Requires a definition of every field that a section shows. -/
def requireDocumented (r : Registry) (dictionary : Dictionary) :
    List SectionPlan → Except Failure Unit
  | [] => .ok ()
  | plan :: rest => do
    let _ ← dictionary.onlyKeys ((plan.fields r).map (·.name))
      ("section '" ++ plan.dataRef ++ "'")
    requireDocumented r dictionary rest

/-- The tags of the base run and of those it is compared with. -/
def joinedTag (base : String) (others : List String) : String :=
  "-vs-".intercalate (base :: others)

/-- The context of a report on a base run and the runs it is compared with. -/
def assemble (r : Registry) (dictionary : Dictionary) (keys : ChartKeys) (identity : Identity)
    (base : Run) (comparisons : List Run) (summary : SectionPlan) (analyses : List SectionPlan) :
    Except Failure Context := do
  if comparisons.isEmpty then
    throw (.emptyRunSet ("no comparison runs supplied for base run '" ++ base.tag ++ "'"))
  requireDocumented r dictionary (summary :: analyses)
  let cluster ← dictionary.onlyKeys keys.clusterPerformance "charts.cluster_perf"
  let blocks ← dictionary.onlyKeys keys.blockPropagation "charts.block_prop"
  let baseIdentity := RunIdentity.ofRun base
  return {
    report := {
      title := baseIdentity.version ++ " " ++ baseIdentity.workloadTitle
      author := identity.author
      date := identity.date.secondsText
      toolVersion := identity.toolVersion
      target := baseIdentity.version
      tag := joinedTag base.tag (comparisons.map (·.tag)) }
    base := baseIdentity
    runs := comparisons.map RunIdentity.ofRun
    summary := SectionDescription.ofPlan summary r
    analyses := analyses.map fun plan => SectionDescription.ofPlan plan r
    dictionary
    charts := ⟨cluster, blocks⟩ }

end Context

end RunReport
