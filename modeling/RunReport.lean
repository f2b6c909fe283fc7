import RunReport.Number.Numeral
import RunReport.Number.Shortest
import RunReport.Json.Printer
import RunReport.Json.Parser
import RunReport.Json.Record
import RunReport.Time.Text
import RunReport.Distribution.Merge
import RunReport.Distribution.Basic
import RunReport.Metric.Catalogue
import RunReport.Metric.Dictionary
import RunReport.Run.Json
import RunReport.Section.Basic
import RunReport.Table.Writing
import RunReport.Report.Rendering
import RunReport.Report.Format
import RunReport.Settings.Basic
import RunReport.Files.Tree
import RunReport.Main
import RunReport.Proofs.Section.Rows
import RunReport.Proofs.Table.Transposition
import RunReport.Proofs.Distribution.FoldOrder
import RunReport.Proofs.Distribution.Exact
import RunReport.Proofs.Distribution.MergeTree
import RunReport.Proofs.Distribution.Samples
import RunReport.Proofs.Report.Stages
import RunReport.Proofs.Files.Change
import RunReport.Proofs.Command.Rollback
import RunReport.Proofs.Command.Delivery
import RunReport.Proofs.Distribution.Overflow
import RunReport.Proofs.Distribution.ReadBack
import RunReport.Proofs.Distribution.Validity
import RunReport.Proofs.Report.Labels
import RunReport.Proofs.Report.Overwriting
import RunReport.Proofs.Run.Merging
import RunReport.Proofs.Json.Faithful
import RunReport.Proofs.Report.Emission
import RunReport.Proofs.Command.Rejection
import RunReport.Proofs.Command.Precedence
import RunReport.Proofs.Distribution.FoldOutcome
import RunReport.Proofs.Report.Tables
import RunReport.Proofs.Report.Escaping
import RunReport.Proofs.Time.ReadBack
import RunReport.Proofs.Json.Genuine
import RunReport.Proofs.Run.ReadBack
import RunReport.Proofs.Distribution.Neutrality
import RunReport.Proofs.Distribution.Addressing
import RunReport.Proofs.Template.Composition
import RunReport.Proofs.Report.Reachability
import RunReport.Proofs.Table.Alignment
import RunReport.Proofs.Report.Assembly
import RunReport.Proofs.Section.Resolution
import RunReport.Proofs.Number.Rewriting
import RunReport.Proofs.Run.Counts
import RunReport.Proofs.Distribution.Rising
import RunReport.Proofs.Distribution.Acceptance
import RunReport.Proofs.Distribution.Containment
import RunReport.Proofs.Table.OrgLayout
import RunReport.Proofs.Table.PlainLayout
import RunReport.Proofs.Section.Collisions
import RunReport.Proofs.Report.Documentation
import RunReport.Proofs.Text.Inert
import RunReport.Proofs.Command.Templates
import RunReport.Proofs.Section.NormalForm
import RunReport.Proofs.Run.Workload
import RunReport.Proofs.Metric.Registry
