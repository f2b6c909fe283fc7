import RunReport.Proofs.Report.Documentation
import RunReport.Proofs.Report.Room
import RunReport.Proofs.Report.Tree
import RunReport.Proofs.Run.Fields

/-!
# The standard report

A plan suits every run if its layout is accepted, if every run holds what its
sections show, if its dictionary is that of its registry and covers the charts,
if its templates are the standard ones and if its own names are short. On such a plan
the report on some runs and at least one to compare with passes every stage, and it is
generated exactly when each of its formats has room for each of the runs. The standard
plan suits every run.
-/

namespace RunReport

namespace ReportPlan

/-- A plan with the standard templates whose sections every run can fill. -/
structure SuitsEveryRun (plan : ReportPlan) : Prop where
  /-- The layout has no clashes. -/
  accepted : Layout.check plan.layout = .ok ()
  /-- Every run holds what a section shows. -/
  held : ∀ part ∈ plan.layout, ∀ f ∈ part.fields plan.registry, f.IsHeld part.category
  /-- The dictionary follows from the registry. -/
  documented : plan.dictionary = Dictionary.ofRegistry plan.registry
  /-- What is charted is declared. -/
  charted : ∀ key ∈ plan.chartKeys.clusterPerformance ++ plan.chartKeys.blockPropagation,
    key ∈ plan.registry.fields.map (·.name)
  /-- The summary has the key under which the standard templates ask for it. -/
  summaryKey : plan.summary.dataRef = "summary"
  /-- The templates are the standard ones. -/
  templates_eq : plan.templates = Template.standard
  /-- Its own names have room in every format. -/
  modest : ∀ part ∈ plan.layout, part.Modest plan.registry

namespace SuitsEveryRun

variable {plan : ReportPlan} {identity : Identity} {base : Run} {comparisons : List Run}

/-- A report on runs to compare passes the stages before its templates. -/
theorem exists_prepared (h : plan.SuitsEveryRun) (identity : Identity) (base : Run)
    (present : comparisons ≠ []) :
    ∃ c sets, Prepared plan identity base comparisons c sets := by
  refine (@exists_prepared_iff plan identity base comparisons []).2 fun stage early => ?_
  cases stage with
  | layout => exact h.accepted
  | runs => exact present
  | dictionary =>
    rw [Passes, h.documented]
    exact ⟨Context.documented_ofRegistry _ _,
      fun key charted => Dictionary.defines_ofRegistry_iff.2 (h.charted key charted)⟩
  | sections => exact fun part listed run _ => SectionPlan.exists_build (h.held part listed) run
  | templates => exact absurd rfl early

/-- Its templates can be filled in, whatever the format. -/
theorem fills (h : plan.SuitsEveryRun) {c : Context} {sets : List SectionSet}
    (prepared : Prepared plan identity base comparisons c sets) (format : OutputFormat) :
    plan.Fills identity base comparisons format := by
  obtain ⟨entries, each⟩ := prepared.exists_entries
  have plans := prepared.map_plan_entries each
  have accepted : Layout.check ((Rendered.textsOf format entries).map (·.1)) = .ok () := by
    rw [Rendered.map_plan_textsOf, plans]
    exact h.accepted
  obtain ⟨⟨summary, t⟩, others, rfl, same, _⟩ := List.map_eq_cons_iff.1 plans
  have given : (summary, format.table t) ∈ Rendered.textsOf format ((summary, t) :: others) :=
    List.mem_cons_self
  have key : summary.dataRef = "summary" := (congrArg (·.dataRef) same).trans h.summaryKey
  have led : ∀ path ∈ Template.standardPaths, ∃ s,
      Template.resolve (Rendered.treeOf format c ((summary, t) :: others)) path.toList =
        some (.string s) :=
    List.forall_mem_append.2 ⟨Rendered.exists_resolve_of_mem_contextPaths,
      Rendered.exists_resolve_of_mem_tablePaths accepted given key⟩
  obtain ⟨text, filled⟩ := Template.exists_render_standard led format
  exact ⟨_, text, (prepared.treeIn_iff each).2 rfl, h.templates_eq ▸ filled⟩

/-- A report is generated if there is a run to compare with and room for all runs. -/
theorem exists_generate (h : plan.SuitsEveryRun) (identity : Identity) {base : Run}
    (present : comparisons ≠ []) {formats : List OutputFormat}
    (room : ∀ format ∈ formats, ∀ run ∈ base :: comparisons, plan.HasRoom format run) :
    ∃ reports, plan.generate identity base comparisons formats = .ok reports := by
  obtain ⟨c, sets, prepared⟩ := h.exists_prepared identity base present
  rw [prepared.generate_eq]
  refine Traversal.exists_mapM_iff.2 fun format asked => prepared.exists_render_iff.2
    ⟨h.fills prepared format, fun wide => ?_⟩
  exact (prepared.overruns_iff_hasRoom h.modest).1 wide (room format asked)

/-- If there is no room for a run, the program ends. -/
theorem generate_eq_crashed (h : plan.SuitsEveryRun) (identity : Identity) {base : Run}
    (present : comparisons ≠ []) {formats : List OutputFormat}
    (narrow : ∃ format ∈ formats, ∃ run ∈ base :: comparisons, ¬ plan.HasRoom format run) :
    plan.generate identity base comparisons formats = .error .crashed := by
  obtain ⟨c, sets, prepared⟩ := h.exists_prepared identity base present
  cases generated : plan.generate identity base comparisons formats with
  | ok reports =>
    obtain ⟨format, asked, run, listed, none⟩ := narrow
    refine absurd ((exists_generate_iff.1 ⟨reports, generated⟩).2 format asked) (not_not.2 ?_)
    exact (prepared.overruns_iff_hasRoom h.modest).2 fun room => none (room run listed)
  | error halt =>
    obtain ⟨_, format, _, _, _, fault⟩ := prepared.generate_eq_error_iff.1 generated
    cases fault with
    | overruns _ => rfl
    | template _ treeIn found =>
      exact absurd (h.fills prepared format) (prepared.not_fills_of_error treeIn found)

end SuitsEveryRun

/-- The standard plan suits every run. -/
theorem standard_suitsEveryRun : standard.SuitsEveryRun where
  accepted := rfl
  held := Layout.isHeld_of_standard
  documented := rfl
  charted := by decide +kernel
  summaryKey := rfl
  templates_eq := rfl
  modest := by decide +kernel

/-- A standard report has room for a run in a format exactly when its texts fit a cell, the
tag with ten more characters. -/
theorem standard_hasRoom_iff {format : OutputFormat} {run : Run} :
    standard.HasRoom format run ↔ format.cellSize (run.tag ++ "Average ()") ≤ fillLimit ∧
      ∀ s ∈ run.metadata.names, format.cellSize s ≤ fillLimit := by
  have sizes : format.cellSize "Value" ≤ format.cellSize "Average" := by
    cases format <;> decide
  have widest : format.cellSize (run.tag ++ "Average ()") =
      format.cellSize "Average" + format.cellSize run.tag + format.cellSize " ()" := by
    have split : "Average ()" = "Average" ++ " ()" := rfl
    simp only [split, OutputFormat.cellSize_append]
    omega
  rw [widest]
  constructor
  · rintro ⟨names, headings⟩
    have average := headings (SectionPlan.ofKey "Forging" "forging" .machinePerformance
      (Selector.group .forging)) (by simp [layout, standard, Layout.standardAnalyses])
    exact ⟨(OutputFormat.cellSize_heading format "Average" run.tag).symm.trans_le average, names⟩
  · rintro ⟨tag, names⟩
    refine ⟨names, fun part drawn => ?_⟩
    have short : format.cellSize part.valueColumn ≤ format.cellSize "Average" := by
      have column : ∀ part ∈ standard.layout,
          part.valueColumn = "Value" ∨ part.valueColumn = "Average" := by decide
      rcases column part drawn with same | same
      · exact same ▸ sizes
      · exact same ▸ Nat.le_refl _
    have least := OutputFormat.cellSize_heading format part.valueColumn run.tag
    unfold OutputFormat.Admits
    omega

/-- A standard report on any run and some runs to compare it with is generated, in whatever
formats, if each of these has room for each of the runs. Each format has one report in turn,
named after the workload of the base run, with one file for each standard section. If
there is no room for a run in one of the formats, the program ends. There is room for a run
exactly when its texts fit a cell, the tag with ten more characters. -/
theorem standard_covers (identity : Identity) (base : Run) {comparisons : List Run}
    (present : comparisons ≠ []) (formats : List OutputFormat) :
    ((∀ format ∈ formats, ∀ run ∈ base :: comparisons, standard.HasRoom format run) →
      ∃ reports, standard.generate identity base comparisons formats = .ok reports ∧
        List.Forall₂ (fun format (report : Rendered) =>
          report.Covers standard format base comparisons) formats reports) ∧
    ((∃ format ∈ formats, ∃ run ∈ base :: comparisons, ¬ standard.HasRoom format run) →
      standard.generate identity base comparisons formats = .error .crashed) ∧
    ∀ (format : OutputFormat) (run : Run), standard.HasRoom format run ↔
      format.cellSize (run.tag ++ "Average ()") ≤ fillLimit ∧
        ∀ s ∈ run.metadata.names, format.cellSize s ≤ fillLimit := by
  refine ⟨fun room => ?_, standard_suitsEveryRun.generate_eq_crashed identity present,
    fun _ _ => standard_hasRoom_iff⟩
  obtain ⟨reports, generated⟩ := standard_suitsEveryRun.exists_generate identity present room
  exact ⟨reports, generated, covers_of_generate generated⟩

/-- The identity of a report whose author is named like a tag of a template. -/
def tagAuthor : Identity :=
  { author := "\x7b\x7breport.author", toolVersion := ""
    date := (Run.level "" 0).metadata.timestamp }

/-- Two runs whose tags look like parts of a table or of a template, in a list of
formats with one repeated. -/
theorem standard_covers_odd_tags :
    [Run.level "\x7d\x7d & \\hline" 2] ≠ [] ∧ ∃ reports,
      standard.generate tagAuthor (Run.level "a\n| b |" 1) [Run.level "\x7d\x7d & \\hline" 2]
        [.latex, .text, .latex] = .ok reports ∧
      List.Forall₂ (fun format (report : Rendered) => report.Covers standard format
        (Run.level "a\n| b |" 1) [Run.level "\x7d\x7d & \\hline" 2])
        [.latex, .text, .latex] reports := by
  have present : [Run.level "\x7d\x7d & \\hline" 2] ≠ [] := List.cons_ne_nil _ _
  exact ⟨present, (standard_covers tagAuthor _ present _).1 (by decide +kernel)⟩

/-- In Org text there is no room for a run whose tag is too long for a cell. -/
theorem not_hasRoom_letters (plan : ReportPlan) (level : ℕ) :
    ¬ plan.HasRoom .org (Run.level (Table.letters 65536) level) := by
  intro room
  have tag : (Table.orgCell (Table.letters 65536)).length ≤ fillLimit :=
    room.names (Table.letters 65536) List.mem_cons_self
  rw [Table.length_orgCell_letters] at tag
  exact absurd tag (by decide)

/-- A run whose tag is too long for a cell in Org text ends the program. -/
theorem generate_letters :
    standard.generate tagAuthor (Run.level (Table.letters 65536) 1) [Run.level "prev" 2] [.org] =
      .error .crashed :=
  standard_suitsEveryRun.generate_eq_crashed tagAuthor (List.cons_ne_nil _ _)
    ⟨.org, List.mem_cons_self, _, List.mem_cons_self, not_hasRoom_letters standard 1⟩

/-- There is a run to compare with, and yet there is no report. -/
theorem standard_crashes_on_letters : [Run.level "prev" 2] ≠ [] ∧
    ¬ ∃ reports, standard.generate tagAuthor (Run.level (Table.letters 65536) 1)
      [Run.level "prev" 2] [.org] = .ok reports := by
  refine ⟨List.cons_ne_nil _ _, ?_⟩
  rintro ⟨reports, generated⟩
  exact absurd (generate_letters.symm.trans generated) (by simp)

/-- Every stage is passed, and yet the program ends. -/
theorem stages_passed_on_letters :
    (∀ stage, standard.Passes tagAuthor (Run.level (Table.letters 65536) 1) [Run.level "prev" 2]
      [.org] stage) ∧
    standard.generate tagAuthor (Run.level (Table.letters 65536) 1) [Run.level "prev" 2] [.org] =
      .error .crashed := by
  obtain ⟨c, sets, prepared⟩ := standard_suitsEveryRun.exists_prepared tagAuthor
    (Run.level (Table.letters 65536) 1) (List.cons_ne_nil (Run.level "prev" 2) [])
  refine ⟨fun stage => ?_, generate_letters⟩
  by_cases last : stage = .templates
  · exact last ▸ fun format _ => standard_suitsEveryRun.fills prepared format
  · exact exists_prepared_iff.1 ⟨c, sets, prepared⟩ stage last

end ReportPlan

end RunReport
