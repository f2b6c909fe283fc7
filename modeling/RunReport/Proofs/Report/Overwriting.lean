import RunReport.Proofs.Report.Standard

/-!
# When reports overwrite each other

The sections of an accepted layout have names of their own, but nothing keeps a
section from taking the name of the report itself. So the files of a report have
different names exactly when no section does that and no format is asked for
twice.
-/

namespace RunReport

namespace ReportPlan

variable {plan : ReportPlan} {identity : Identity} {base : Run} {comparisons : List Run}
  {formats : List OutputFormat} {reports : List Rendered}

/-- The files of the reports that are generated have different names exactly when
no format is asked for twice and no section takes the name of the report, however
many formats there are and whether or not the files that the reports were made
from are written too. -/
theorem nodup_names_files_iff (emitContext : Bool)
    (generated : plan.generate identity base comparisons formats = .ok reports) :
    ((reports.flatMap (·.files emitContext)).map (·.name)).Nodup ↔
      formats.Nodup ∧ (formats = [] ∨
        ∀ part ∈ plan.layout, part.targetFile ≠ base.metadata.workload.reportStem) := by
  obtain ⟨c, sets, h⟩ := exists_prepared_of_generate generated
  have distinct := Layout.nodup_files_of_check h.accepted
  have apart : (base.metadata.workload.reportStem :: plan.layout.map (·.targetFile)).Nodup ↔
      ∀ part ∈ plan.layout, part.targetFile ≠ base.metadata.workload.reportStem := by
    rw [List.nodup_cons, and_iff_left distinct]
    simp
  rw [map_name_files emitContext generated, OutputFormat.nodup_flatMap_fileNames_iff_stems, apart]

/-- A standard report in two formats, with the files it was made from, has a
name of its own for each file. -/
theorem nodup_names_standard :
    ∃ reports, standard.generate tagAuthor (Run.level "base" 1) [Run.level "prev" 2]
        [.org, .text] = .ok reports ∧
      ((reports.flatMap (·.files true)).map (·.name)).Nodup := by
  have room : ∀ format ∈ [OutputFormat.org, .text],
      ∀ run ∈ [Run.level "base" 1, Run.level "prev" 2], standard.HasRoom format run := by decide +kernel
  obtain ⟨reports, generated⟩ := standard_suitsEveryRun.exists_generate tagAuthor
    (List.cons_ne_nil (Run.level "prev" 2) []) room
  refine ⟨reports, generated, (nodup_names_files_iff true generated).2 ⟨by decide, .inr ?_⟩⟩
  decide

/-- The standard plan with one section of distributions, whose table would have
the name of a report on value transfers. -/
def shadowing : ReportPlan :=
  { standard with
    analyses := [{ SectionPlan.ofKey "Forging" "forging" .machinePerformance
      (Selector.group .forging) with targetFile := "report-value-only" }] }

/-- The layout is accepted and the report is generated in one format, but the
table of the forging section and the report have the same name. -/
theorem names_repeat_shadowing :
    Layout.check shadowing.layout = .ok () ∧ [OutputFormat.text].Nodup ∧ ∃ reports,
      shadowing.generate tagAuthor (Run.level "base" 1) [Run.level "prev" 2] [.text] =
        .ok reports ∧
      ¬ ((reports.flatMap (·.files false)).map (·.name)).Nodup := by
  have suits : shadowing.SuitsEveryRun :=
    { accepted := rfl
      held := by decide +kernel
      documented := rfl
      charted := by decide +kernel
      summaryKey := rfl
      templates_eq := rfl
      modest := by decide +kernel }
  have room : ∀ format ∈ [OutputFormat.text], ∀ run ∈ [Run.level "base" 1, Run.level "prev" 2],
      shadowing.HasRoom format run := by decide +kernel
  obtain ⟨reports, generated⟩ := suits.exists_generate tagAuthor
    (List.cons_ne_nil (Run.level "prev" 2) []) room
  refine ⟨suits.accepted, List.nodup_singleton _, reports, generated, ?_⟩
  rw [map_name_files false generated]
  decide

end ReportPlan

end RunReport
