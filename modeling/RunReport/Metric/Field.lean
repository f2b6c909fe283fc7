import RunReport.Distribution.Basic
import RunReport.Text.Quoted

/-!
# Metric fields

A field names one metric, says how it is shown, and where it belongs: the
categories are the tables of a run, the groups are the sections of a report.
An instant field has one value for a run; a distributional field has a
distribution, of which one statistic is shown. The two tables of distributions
hold a fixed list of metrics each, in the order in which tables are written, read
and merged.
-/

namespace RunReport

/-- The table of a run from which a field is read. -/
inductive Category where
  /-- Values of the run as a whole. -/
  | summary
  /-- Distributions over the machines. -/
  | machinePerformance
  /-- Distributions of block propagation. -/
  | blockPropagation
  deriving DecidableEq

/-- The name of a category in messages. -/
def Category.name : Category → String
  | summary => "Summary"
  | machinePerformance => "MachPerf"
  | blockPropagation => "BlockProp"

/-- The section of a report in which a field is shown. -/
inductive FieldGroup where
  /-- The run as a whole. -/
  | run
  /-- Use of resources. -/
  | resource
  /-- Making of blocks. -/
  | forging
  /-- Propagation from peer to peer. -/
  | peerPropagation
  /-- Propagation over the whole cluster. -/
  | endToEnd
  deriving DecidableEq

/-- The name of a group in the text of a selector. -/
def FieldGroup.name : FieldGroup → String
  | run => "Run"
  | resource => "Resource"
  | forging => "Forging"
  | peerPropagation => "PeerPropagation"
  | endToEnd => "EndToEnd"

/-- What a field holds for a run. -/
inductive FieldKind where
  /-- One value. -/
  | instant
  /-- A distribution, shown by one of its statistics. -/
  | distributional (shown : Statistic)
  deriving DecidableEq

/-- The word for a kind. -/
def FieldKind.name : FieldKind → String
  | instant => "instant"
  | distributional _ => "distributional"

/-- A metric and how it is shown. -/
structure Field where
  /-- Identifier, also the name under which a table holds the metric. -/
  name : String
  /-- Label of the row that shows it. -/
  label : String := ""
  /-- What it measures. -/
  description : String := ""
  /-- Unit of its values. -/
  unit : String := ""
  /-- Decimal places shown. -/
  precision : Nat := 0
  /-- Least width of the column in plain text. -/
  width : Nat := 6
  /-- Section that shows it. -/
  group : FieldGroup := .run
  /-- Tables that hold it. -/
  categories : List Category := []
  /-- What it holds. -/
  kind : FieldKind := .instant
  deriving DecidableEq

namespace Field

/-- Whether a table of the given category holds the field. -/
def appliesTo (f : Field) (category : Category) : Bool := f.categories.contains category

/-- The field showing another statistic; an instant field has none to change. -/
def withStatistic (statistic : Statistic) (f : Field) : Field :=
  match f.kind with
  | .distributional _ => { f with kind := .distributional statistic }
  | .instant => f

end Field

/-- A choice of fields, with words for it. -/
structure Selector where
  /-- What is chosen, in words. -/
  description : String
  /-- Whether a field is chosen. -/
  selects : Field → Bool

namespace Selector

/-- Every field. -/
def all : Selector := ⟨"all", fun _ => true⟩

/-- No field. -/
def none : Selector := ⟨"none", fun _ => false⟩

/-- The fields of one group. -/
def group (g : FieldGroup) : Selector := ⟨"group:" ++ g.name, fun f => f.group = g⟩

/-- The fields of the given names. -/
def names (ns : List String) : Selector :=
  ⟨"names:" ++ ",".intercalate ns, fun f => ns.contains f.name⟩

/-- The selector as text. -/
def text (s : Selector) : String := "FieldSelector(" ++ Text.quoted s.description ++ ")"

end Selector

/-- Metrics of the machines: use of resources and making of blocks. -/
def machineMetrics : List String :=
  ["cpu_process", "cpu_gc", "cpu_mutator", "rss", "heap", "alloc_rate", "net_read", "net_write",
    "fs_read", "fs_write", "slot_start", "leadership", "forge", "block_gap"]

/-- Metrics of block propagation. -/
def propagationMetrics : List String :=
  ["notice", "request", "fetched", "adopted", "announced", "sent", "prop_0_50", "prop_0_80",
    "prop_0_90", "prop_0_96", "prop_1_00", "block_size"]

end RunReport
