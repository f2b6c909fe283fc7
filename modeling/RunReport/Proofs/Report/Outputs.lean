import RunReport.Command.Publication
import RunReport.Proofs.Command.Publishing
import RunReport.Proofs.Report.FileNames
import RunReport.Proofs.Report.Stages

/-!
# The names of a report's files

The names of a report's files follow from the workload of the base run, the
sections and the formats alone. With the standard sections all of them can be
given to files.
-/

namespace RunReport

/-- Every name can be given to a file. -/
theorem OutputFormat.isFileName_of_mem_fileNames (format : OutputFormat) (workload : Workload)
    (emitContext : Bool) :
    ∀ name ∈ format.fileNames Layout.standardStems workload emitContext,
      Publication.IsFileName name := by
  cases format <;> cases workload <;> cases emitContext <;> decide +kernel

/-- The context of a report identifies its runs and describes its summary. -/
theorem Context.parts_of_assemble {r : Registry} {dictionary : Dictionary} {keys : ChartKeys}
    {identity : Identity} {base : Run} {comparisons : List Run} {summary : SectionPlan}
    {analyses : List SectionPlan} {c : Context}
    (h : assemble r dictionary keys identity base comparisons summary analyses = .ok c) :
    c.base = RunIdentity.ofRun base ∧ c.runs = comparisons.map RunIdentity.ofRun ∧
      c.summary = SectionDescription.ofPlan summary r := by
  unfold assemble at h
  split at h
  · cases h
  · obtain ⟨_, _, h⟩ := Traversal.bind_eq_ok_iff.1 h
    obtain ⟨_, _, h⟩ := Traversal.bind_eq_ok_iff.1 h
    obtain ⟨_, _, h⟩ := Traversal.bind_eq_ok_iff.1 h
    exact Except.ok.inj h ▸ ⟨rfl, rfl, rfl⟩

/-- The names of a report's files. -/
theorem Rendered.map_name_files_ofText (format : OutputFormat) (template : String) (c : Context)
    (entries : List (SectionPlan × Table)) (text : String) (emitContext : Bool)
    {workload : Workload} (based : c.base.fileToken = workload.fileToken) :
    ((ofText format template c entries text).files emitContext).map (·.name) =
      format.fileNames (entries.map (·.1.targetFile)) workload emitContext := by
  cases emitContext <;> simp [files, ofText, reportFile, OutputFormat.fileNames, based]

namespace ReportPlan

variable {plan : ReportPlan} {identity : Identity} {base : Run} {comparisons : List Run}
  {formats : List OutputFormat} {reports : List Rendered}

/-- The names of the files of all reports, format by format. -/
theorem map_name_files (emitContext : Bool)
    (generated : plan.generate identity base comparisons formats = .ok reports) :
    (reports.flatMap (·.files emitContext)).map (·.name) = formats.flatMap
      (·.fileNames (plan.layout.map (·.targetFile)) base.metadata.workload emitContext) := by
  obtain ⟨c, sets, h⟩ := exists_prepared_of_generate generated
  rw [h.generate_eq] at generated
  have each := Traversal.mapM_eq_ok_iff.1 generated
  clear generated
  induction each with
  | nil => rfl
  | @cons format report formats reports rendered _ ih =>
    rw [List.flatMap_cons, List.map_append, List.flatMap_cons, ih]
    obtain ⟨entries, each⟩ := h.exists_entries
    obtain ⟨_, text, _, rfl⟩ := h.exists_ofText_of_render each rendered
    have based : c.base.fileToken = base.metadata.workload.fileToken := by
      rw [(Context.parts_of_assemble h.assembled).1]
      rfl
    rw [Rendered.map_name_files_ofText _ _ _ _ _ _ based, ← h.map_plan_entries each, List.map_map]
    rfl

end ReportPlan

end RunReport
