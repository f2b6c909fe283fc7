import RunReport.Proofs.Report.Outputs

/-!
# What a report holds

A report that is generated in a format carries the name of its format and of the
workload of its base run. It holds one file for each section of the layout, and
the text of that file is the table that presents all of the runs under the plan
of the section.
-/

namespace RunReport

namespace Table

/-- The table of a set of sections takes its labels from the first section. -/
theorem exists_ofAligned_of_transpose {set : SectionSet} {t : Table}
    (turned : transpose set = .ok t) :
    ∃ first others, set.columns = first :: others ∧ t = ofAligned set.plan first set.columns := by
  unfold transpose at turned
  split at turned
  · cases turned
  · rename_i first others columns
    split at turned
    · cases turned
    · exact ⟨first, others, columns, columns ▸ (Except.ok.inj turned).symm⟩

/-- The table of a set of sections has a value under each heading. -/
theorem complete_of_transpose {set : SectionSet} {t : Table} (turned : transpose set = .ok t) :
    t.Complete := by
  obtain ⟨first, others, _, rfl⟩ := exists_ofAligned_of_transpose turned
  intro row given
  obtain ⟨i, _, rfl⟩ := List.mem_mapIdx.1 given
  exact (List.length_map _).trans (List.length_map _).symm

/-- The table of the sections that a plan makes of some runs presents these runs. -/
theorem presents_of_transpose {plan : SectionPlan} {r : Registry} {runs : List Run}
    {set : SectionSet} {t : Table} (built : plan.buildRuns r runs = .ok set)
    (turned : transpose set = .ok t) : t.Presents r plan runs := by
  obtain ⟨rfl, columns⟩ := SectionPlan.columns_of_buildRuns built
  obtain ⟨first, others, nonempty, rfl⟩ := exists_ofAligned_of_transpose turned
  have head := columns
  rw [nonempty] at head
  obtain ⟨run, _, head, _, _⟩ := List.forall₂_cons_right_iff.1 head
  exact {
    names := ⟨rfl, rfl, rfl⟩
    headers := headers_ofAligned columns
    declared := SectionPlan.fields_eq_filter _ r
    distinct := SectionPlan.nodup_fieldNames _ r
    rows := rows_ofAligned head columns
    described := SectionDescription.fields_ofPlan _ r }

end Table

namespace Rendered

/-- The text is the table in the format that presents the runs under the plan. -/
def IsTableOf (format : OutputFormat) (r : Registry) (runs : List Run) (plan : SectionPlan)
    (text : String) : Prop :=
  ∃ t : Table, t.Presents r plan runs ∧ text = format.table t

/-- A report in a format on some runs, the base run first: its name is that of
the base run's workload, and for each section it has one file, which holds the
table of the runs under the plan of the section. -/
structure Covers (report : Rendered) (plan : ReportPlan) (format : OutputFormat) (base : Run)
    (comparisons : List Run) : Prop where
  /-- The format is the one that was asked for. -/
  format_eq : report.format = format
  /-- The file is named after the workload of the base run. -/
  filename_eq : report.filename =
    "report-" ++ base.metadata.workload.fileToken ++ "." ++ format.extension
  /-- Each section has one file, with the table of the runs. -/
  tables : List.Forall₂ (fun part (file : TableFile) =>
    file.filename = part.targetFile ++ "." ++ format.extension ∧
      IsTableOf format plan.registry (base :: comparisons) part file.text)
    plan.layout report.tables

end Rendered

namespace ReportPlan

variable {plan : ReportPlan} {identity : Identity} {base : Run} {comparisons : List Run}
  {c : Context} {sets : List SectionSet}

/-- Each table of a prepared report presents its runs under the plan that it stands beside,
which is that of the layout in its place. -/
theorem Prepared.presents (h : Prepared plan identity base comparisons c sets)
    {entries : List (SectionPlan × Table)} (each : List.Forall₂ SectionSet.HasTable sets entries) :
    List.Forall₂ (fun part (entry : SectionPlan × Table) => entry.1 = part ∧
      entry.2.Presents plan.registry part (base :: comparisons)) plan.layout entries := by
  have built := Traversal.mapM_eq_ok_iff.1 h.built
  clear h
  generalize plan.layout = parts at built
  induction each generalizing parts with
  | nil => exact List.forall₂_nil_right_iff.1 built ▸ .nil
  | cons head _ ih =>
    obtain ⟨part, others, first, rest, rfl⟩ := List.forall₂_cons_right_iff.1 built
    refine .cons ⟨?_, Table.presents_of_transpose first head.turned⟩ (ih others rest)
    exact head.plan_eq.trans (SectionPlan.columns_of_buildRuns first).1

/-- A prepared report that is rendered in a format covers its runs. -/
theorem Prepared.covers_of_render (h : Prepared plan identity base comparisons c sets)
    {format : OutputFormat} {report : Rendered}
    (rendered : Rendered.render format (plan.templates.get format) c sets = .ok report) :
    report.Covers plan format base comparisons := by
  obtain ⟨entries, each⟩ := h.exists_entries
  obtain ⟨_, text, _, rfl⟩ := h.exists_ofText_of_render each rendered
  refine ⟨rfl, ?_, List.forall₂_map_right_iff.2 ((h.presents each).imp ?_)⟩
  · rw [Rendered.ofText, Rendered.reportFile, (Context.parts_of_assemble h.assembled).1]
    rfl
  · rintro part entry ⟨rfl, presents⟩
    exact ⟨rfl, entry.2, presents, rfl⟩

/-- What is generated has one report for each format in turn, each of which
covers the runs. -/
theorem covers_of_generate {formats : List OutputFormat} {reports : List Rendered}
    (generated : plan.generate identity base comparisons formats = .ok reports) :
    List.Forall₂ (fun format (report : Rendered) => report.Covers plan format base comparisons)
      formats reports := by
  obtain ⟨c, sets, h⟩ := exists_prepared_of_generate generated
  rw [h.generate_eq] at generated
  exact (Traversal.mapM_eq_ok_iff.1 generated).imp fun _ _ rendered => h.covers_of_render rendered

end ReportPlan

end RunReport
