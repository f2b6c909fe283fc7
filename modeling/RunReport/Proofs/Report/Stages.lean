import RunReport.Proofs.Report.Assembly
import RunReport.Proofs.Report.Rendering
import RunReport.Report.Rendering

/-!
# The stages of a report

A report passes five stages in turn: its layout, the presence of a run to
compare with, the dictionary, the sections and the templates. It is generated
exactly when it passes them all and each of its tables can be filled in each format.
Otherwise it stops at the first stage that it does not pass, with the failure that the
check of this stage comes to. At the last stage the first format without a report
decides: the program ends if one of its tables cannot be filled, and else the report is
refused for the fault of its template. The formats have nothing to do with one another:
each report is the one that its format alone would give.
-/

namespace RunReport

/-- A stage that a report passes, in the order in which they come. -/
inductive ReportStage where
  /-- The layout has no clashes. -/
  | layout
  /-- There is a run to compare with. -/
  | runs
  /-- What is shown or charted is defined. -/
  | dictionary
  /-- Every run has what the sections show. -/
  | sections
  /-- The templates can be filled in. -/
  | templates
  deriving DecidableEq

namespace ReportStage

/-- The number of stages that come before. -/
def place : ReportStage → Nat
  | layout => 0
  | runs => 1
  | dictionary => 2
  | sections => 3
  | templates => 4

/-- The kinds of failure that a stage can end in. -/
def failureKinds : ReportStage → List String
  | layout => ["SectionCollision"]
  | runs => ["EmptyRunSet"]
  | dictionary => ["MissingMetricDefinition"]
  | sections => ["UnknownField", "InvalidDistribution"]
  | templates => ["TemplateError"]

end ReportStage

/-- A layout is refused only for a clash. -/
theorem Layout.kind_of_checkAfter {earlier plans : List SectionPlan} {failure : Failure}
    (h : checkAfter earlier plans = .error failure) : failure.kind = "SectionCollision" := by
  induction plans generalizing earlier with
  | nil => exact absurd h (by simp [checkAfter])
  | cons plan rest ih =>
    unfold checkAfter at h
    split at h
    · rename_i clash found
      obtain rfl := Except.error.inj h
      unfold clash? at found
      split at found
      · exact Option.some.inj found ▸ rfl
      · split at found
        · exact Option.some.inj found ▸ rfl
        · obtain ⟨first, _, rfl⟩ := Option.map_eq_some_iff.1 found
          rfl
    · exact ih h

/-- With a run to compare with, only a missing definition is refused. -/
theorem Context.kind_of_assemble {r : Registry} {dictionary : Dictionary} {keys : ChartKeys}
    {identity : Identity} {base : Run} {comparisons : List Run} {summary : SectionPlan}
    {analyses : List SectionPlan} (present : comparisons ≠ []) {failure : Failure}
    (h : assemble r dictionary keys identity base comparisons summary analyses =
      .error failure) : failure.kind = "MissingMetricDefinition" := by
  obtain ⟨_, missing, _, _, _, _, rfl⟩ := (assemble_eq_error_iff present).1 h
  rfl

/-- What a field is refused for is a failure of the sections. -/
theorem Field.Refused.kind_mem {f : Field} {run : Run} {category : Category} {place : String}
    {failure : Failure} (h : f.Refused run category place failure) :
    failure.kind ∈ ReportStage.sections.failureKinds := by
  cases h with
  | noValue | noDistribution => exact List.mem_cons_self
  | offGrid => exact List.mem_cons_of_mem _ List.mem_cons_self

namespace SectionPlan

variable {plan : SectionPlan} {r : Registry} {runs : List Run}

/-- Sections of several runs are built exactly when the section of each is. -/
theorem exists_buildRuns_iff :
    (∃ set, plan.buildRuns r runs = .ok set) ↔ ∀ run ∈ runs, ∃ s, plan.build r run = .ok s := by
  simp only [buildRuns, Traversal.map_eq_ok_iff]
  have each : (∃ columns, runs.mapM (fun run => (plan.build r run).map (RunSection.mk run.tag)) =
      .ok columns) ↔ _ := Traversal.exists_mapM_iff
  simp only [Traversal.map_eq_ok_iff] at each
  constructor
  · rintro ⟨_, columns, built, _⟩ run hrun
    obtain ⟨_, s, hs, _⟩ := each.1 ⟨columns, built⟩ run hrun
    exact ⟨s, hs⟩
  · intro built
    obtain ⟨columns, hcolumns⟩ := each.2 fun run hrun => by
      obtain ⟨s, hs⟩ := built run hrun
      exact ⟨_, s, hs, rfl⟩
    exact ⟨_, columns, hcolumns, rfl⟩

/-- Sections are refused only for a field that a run cannot show. -/
theorem kind_of_buildRuns {failure : Failure} (h : plan.buildRuns r runs = .error failure) :
    failure.kind ∈ ReportStage.sections.failureKinds := by
  obtain ⟨_, run, _, _, _, refused⟩ :=
    Traversal.mapM_eq_error_iff.1 (Traversal.map_eq_error_iff.1 h)
  obtain ⟨_, f, _, _, _, refused⟩ := build_eq_error_iff.1 (Traversal.map_eq_error_iff.1 refused)
  exact refused.kind_mem

end SectionPlan

namespace ReportPlan

variable (plan : ReportPlan) (identity : Identity) (base : Run) (comparisons : List Run)

/-- What the first four stages come to: a context and sections under an
accepted layout. -/
structure Prepared (c : Context) (sets : List SectionSet) : Prop where
  /-- The layout has no clashes. -/
  accepted : Layout.check plan.layout = .ok ()
  /-- The context is assembled. -/
  assembled : plan.context identity base comparisons = .ok c
  /-- The sections are built. -/
  built : plan.sets base comparisons = .ok sets

/-- What a report shows in every format: a context, and the tables of its sections. -/
def Shows (c : Context) (entries : List (SectionPlan × Table)) : Prop :=
  ∃ sets, plan.Prepared identity base comparisons c sets ∧
    List.Forall₂ SectionSet.HasTable sets entries

/-- The tree is the one that the template of a format is filled in from: the
context of the report with the tables of its sections in that format. -/
def TreeIn (format : OutputFormat) (tree : Json) : Prop :=
  ∃ c entries, plan.Shows identity base comparisons c entries ∧
    tree = Rendered.treeOf format c entries

/-- A table of the report cannot be filled in a format. -/
def Overruns (format : OutputFormat) : Prop :=
  ∃ c entries, plan.Shows identity base comparisons c entries ∧
    ¬ Rendered.Fillable format c entries

/-- The template of a format can be filled in from the tree of the format. -/
def Fills (format : OutputFormat) : Prop :=
  ∃ tree text, plan.TreeIn identity base comparisons format tree ∧
    Template.render (plan.templates.get format) tree = .ok text

/-- The report passes a stage. -/
def Passes (formats : List OutputFormat) : ReportStage → Prop
  | .layout => Layout.check plan.layout = .ok ()
  | .runs => comparisons ≠ []
  | .dictionary => Context.Documented plan.registry plan.dictionary plan.layout ∧
      ∀ key ∈ plan.chartKeys.clusterPerformance ++ plan.chartKeys.blockPropagation,
        plan.dictionary.Defines key
  | .sections => ∀ part ∈ plan.layout, ∀ run ∈ base :: comparisons,
      ∃ s, part.build plan.registry run = .ok s
  | .templates => ∀ format ∈ formats, plan.Fills identity base comparisons format

/-- Why there is no report in a format. -/
inductive FaultIn (format : OutputFormat) : Halt → Prop where
  /-- A table cannot be filled. -/
  | overruns (wide : plan.Overruns identity base comparisons format) : FaultIn format .crashed
  /-- All tables can be filled, but the template cannot be filled in. -/
  | template {tree : Json} {fault : Template.Fault}
    (narrow : ¬ plan.Overruns identity base comparisons format)
    (treeIn : plan.TreeIn identity base comparisons format tree)
    (found : Template.render (plan.templates.get format) tree = .error fault) :
    FaultIn format (.refused (.templateError format.name fault.message))

/-- Why there is no report in the first format without one. -/
def FirstFault (formats : List OutputFormat) (halt : Halt) : Prop :=
  ∃ before format after, formats = before ++ format :: after ∧
    (∀ other ∈ before, plan.Fills identity base comparisons other ∧
      ¬ plan.Overruns identity base comparisons other) ∧
    plan.FaultIn identity base comparisons format halt

/-- What comes of a stage that is not passed: the failure of its check, at the last stage
that of the first format without a report. -/
def HaltsWith (formats : List OutputFormat) (halt : Halt) : ReportStage → Prop
  | .layout => ∃ failure, Layout.check plan.layout = .error failure ∧ halt = .refused failure
  | .runs => comparisons = [] ∧ ∃ failure,
      plan.context identity base comparisons = .error failure ∧ halt = .refused failure
  | .dictionary => ∃ failure,
      plan.context identity base comparisons = .error failure ∧ halt = .refused failure
  | .sections => ∃ failure, plan.sets base comparisons = .error failure ∧ halt = .refused failure
  | .templates => plan.FirstFault identity base comparisons formats halt

/-- The report stops at a stage: it passes all that come before, and this is what comes of
the stage. -/
structure StopsAt (formats : List OutputFormat) (stage : ReportStage) (halt : Halt) : Prop where
  /-- The stages before are passed. -/
  reaches : ∀ earlier, earlier.place < stage.place →
    plan.Passes identity base comparisons formats earlier
  /-- The stage ends the report. -/
  halts : plan.HaltsWith identity base comparisons formats halt stage

variable {plan identity base comparisons}

/-- Sections of all runs are built exactly when the sections stage is passed. -/
theorem exists_sets_iff : (∃ sets, plan.sets base comparisons = .ok sets) ↔
    ∀ part ∈ plan.layout, ∀ run ∈ base :: comparisons,
      ∃ s, part.build plan.registry run = .ok s := by
  rw [sets, Traversal.exists_mapM_iff]
  exact forall₂_congr fun part _ => SectionPlan.exists_buildRuns_iff

/-- Sections built for a report always have tables. -/
theorem exists_transpose_of_sets {sets : List SectionSet}
    (built : plan.sets base comparisons = .ok sets) :
    ∀ set ∈ sets, ∃ t, Table.transpose set = .ok t :=
  Layout.exists_transpose_of_built (List.cons_ne_nil _ _) built

namespace Prepared

variable {c : Context} {sets : List SectionSet} {entries : List (SectionPlan × Table)}
  {format : OutputFormat}

/-- The layout of the sections is accepted. -/
theorem check_sets (h : Prepared plan identity base comparisons c sets) :
    Layout.check (sets.map (·.plan)) = .ok () :=
  (Layout.map_plan_of_built h.built).symm ▸ h.accepted

/-- The plans beside the tables are those of the layout. -/
theorem map_plan_entries (h : Prepared plan identity base comparisons c sets)
    (each : List.Forall₂ SectionSet.HasTable sets entries) : entries.map (·.1) = plan.layout :=
  (Rendered.map_plan_of_tables each).trans (Layout.map_plan_of_built h.built)

/-- The sections have tables. -/
theorem exists_entries (h : Prepared plan identity base comparisons c sets) :
    ∃ entries, List.Forall₂ SectionSet.HasTable sets entries :=
  SectionSet.exists_tables (exists_transpose_of_sets h.built)

/-- A prepared report shows its own context and tables, and nothing else. -/
theorem shows_iff (h : Prepared plan identity base comparisons c sets)
    (each : List.Forall₂ SectionSet.HasTable sets entries) {c' : Context}
    {entries' : List (SectionPlan × Table)} :
    plan.Shows identity base comparisons c' entries' ↔ c' = c ∧ entries' = entries := by
  constructor
  · rintro ⟨sets', h', each'⟩
    obtain rfl := Except.ok.inj (h'.assembled.symm.trans h.assembled)
    obtain rfl := Except.ok.inj (h'.built.symm.trans h.built)
    exact ⟨rfl, SectionSet.tables_unique each' each⟩
  · rintro ⟨rfl, rfl⟩
    exact ⟨sets, h, each⟩

/-- A prepared report has one tree in each format. -/
theorem treeIn_iff (h : Prepared plan identity base comparisons c sets)
    (each : List.Forall₂ SectionSet.HasTable sets entries) {tree : Json} :
    plan.TreeIn identity base comparisons format tree ↔
      tree = Rendered.treeOf format c entries := by
  simp [TreeIn, h.shows_iff each]

/-- A template with a fault in the tree of its format is not filled in. -/
theorem not_fills_of_error (h : Prepared plan identity base comparisons c sets) {tree : Json}
    {fault : Template.Fault} (treeIn : plan.TreeIn identity base comparisons format tree)
    (found : Template.render (plan.templates.get format) tree = .error fault) :
    ¬ plan.Fills identity base comparisons format := by
  obtain ⟨entries, each⟩ := h.exists_entries
  rintro ⟨other, text, made, filled⟩
  obtain rfl := (h.treeIn_iff each).1 treeIn
  obtain rfl := (h.treeIn_iff each).1 made
  exact absurd (found.symm.trans filled) (by simp)

/-- A prepared report overruns a format exactly when one of its tables does. -/
theorem overruns_iff (h : Prepared plan identity base comparisons c sets)
    (each : List.Forall₂ SectionSet.HasTable sets entries) :
    plan.Overruns identity base comparisons format ↔ ¬ Rendered.Fillable format c entries := by
  simp [Overruns, h.shows_iff each]

/-- What is left of a prepared report is to render it in each format. -/
theorem generate_eq (h : Prepared plan identity base comparisons c sets)
    (formats : List OutputFormat) :
    plan.generate identity base comparisons formats =
      formats.mapM fun format => Rendered.render format (plan.templates.get format) c sets := by
  rw [generate, Traversal.mapError_eq_ok_iff.2 h.accepted, Traversal.ok_bind,
    Traversal.mapError_eq_ok_iff.2 h.assembled, Traversal.ok_bind,
    Traversal.mapError_eq_ok_iff.2 h.built, Traversal.ok_bind]

/-- A prepared report is rendered in a format exactly when its template can be
filled in and its tables can be filled. -/
theorem exists_render_iff (h : Prepared plan identity base comparisons c sets) :
    (∃ report, Rendered.render format (plan.templates.get format) c sets = .ok report) ↔
      plan.Fills identity base comparisons format ∧
        ¬ plan.Overruns identity base comparisons format := by
  obtain ⟨entries, each⟩ := h.exists_entries
  simp only [Rendered.render_eq_ok_iff_of_tables h.check_sets each, Fills, h.treeIn_iff each,
    h.overruns_iff each, not_not]
  constructor
  · rintro ⟨_, fillable, text, filled, _⟩
    exact ⟨⟨_, text, rfl, filled⟩, fillable⟩
  · rintro ⟨⟨_, text, rfl, filled⟩, fillable⟩
    exact ⟨_, fillable, text, filled, rfl⟩

/-- A prepared report is not rendered in a format for a table that cannot be filled or for
the fault of its template. -/
theorem render_eq_error_iff (h : Prepared plan identity base comparisons c sets) {halt : Halt} :
    Rendered.render format (plan.templates.get format) c sets = .error halt ↔
      plan.FaultIn identity base comparisons format halt := by
  obtain ⟨entries, each⟩ := h.exists_entries
  rw [Rendered.render_eq_error_iff_of_tables h.check_sets each]
  constructor
  · rintro (⟨wide, rfl⟩ | ⟨fillable, fault, found, rfl⟩)
    · exact .overruns ((h.overruns_iff each).2 wide)
    · exact .template (fun wide => (h.overruns_iff each).1 wide fillable)
        ((h.treeIn_iff each).2 rfl) found
  · rintro (wide | ⟨narrow, treeIn, found⟩)
    · exact .inl ⟨(h.overruns_iff each).1 wide, rfl⟩
    · obtain rfl := (h.treeIn_iff each).1 treeIn
      rw [h.overruns_iff each, not_not] at narrow
      exact .inr ⟨narrow, _, found, rfl⟩

/-- A report in a format is filled in from the tables of the sections, which can be filled. -/
theorem exists_ofText_of_render {report : Rendered}
    (h : Prepared plan identity base comparisons c sets)
    (each : List.Forall₂ SectionSet.HasTable sets entries)
    (rendered : Rendered.render format (plan.templates.get format) c sets = .ok report) :
    Rendered.Fillable format c entries ∧ ∃ text,
      Template.render (plan.templates.get format) (Rendered.treeOf format c entries) = .ok text ∧
      report = Rendered.ofText format (plan.templates.get format) c entries text :=
  (Rendered.render_eq_ok_iff_of_tables h.check_sets each).1 rendered

/-- A report in a format is its template filled in from the tree of the format. -/
theorem filled_of_render {report : Rendered}
    (h : Prepared plan identity base comparisons c sets)
    (rendered : Rendered.render format (plan.templates.get format) c sets = .ok report) :
    report.templateSource = plan.templates.get format ∧
      ∃ tree, plan.TreeIn identity base comparisons format tree ∧
        Template.render (plan.templates.get format) tree = .ok report.text := by
  obtain ⟨entries, each⟩ := h.exists_entries
  obtain ⟨_, text, filled, rfl⟩ := h.exists_ofText_of_render each rendered
  exact ⟨rfl, _, (h.treeIn_iff each).2 rfl, filled⟩

/-- A report in a format is of that format. -/
theorem format_of_render {report : Rendered}
    (h : Prepared plan identity base comparisons c sets)
    (rendered : Rendered.render format (plan.templates.get format) c sets = .ok report) :
    report.format = format := by
  obtain ⟨entries, each⟩ := h.exists_entries
  obtain ⟨_, text, _, rfl⟩ := h.exists_ofText_of_render each rendered
  rfl

end Prepared

/-- The first four stages are passed exactly when the report can be prepared. -/
theorem exists_prepared_iff {formats : List OutputFormat} :
    (∃ c sets, Prepared plan identity base comparisons c sets) ↔
      ∀ stage, stage ≠ .templates → plan.Passes identity base comparisons formats stage := by
  constructor
  · rintro ⟨c, sets, h⟩
    have present : comparisons ≠ [] := by
      rintro rfl
      obtain ⟨_, refused⟩ := Context.assemble_of_nil plan.registry plan.dictionary plan.chartKeys
        identity base plan.summary plan.analyses
      exact absurd (h.assembled.symm.trans refused) (by simp)
    rintro (_ | _ | _ | _ | _) notLast
    · exact h.accepted
    · exact present
    · exact (Context.exists_assemble_iff present).1 ⟨c, h.assembled⟩
    · exact exists_sets_iff.1 ⟨sets, h.built⟩
    · exact absurd rfl notLast
  · intro passes
    obtain ⟨c, assembled⟩ := (Context.exists_assemble_iff (passes .runs (by decide))).2
      (passes .dictionary (by decide))
    obtain ⟨sets, built⟩ := exists_sets_iff.2 (passes .sections (by decide))
    exact ⟨c, sets, passes .layout (by decide), assembled, built⟩

/-- What is generated was prepared. -/
theorem exists_prepared_of_generate {formats : List OutputFormat} {reports : List Rendered}
    (generated : plan.generate identity base comparisons formats = .ok reports) :
    ∃ c sets, Prepared plan identity base comparisons c sets := by
  obtain ⟨_, accepted, later⟩ := Traversal.bind_eq_ok_iff.1 generated
  obtain ⟨c, assembled, later⟩ := Traversal.bind_eq_ok_iff.1 later
  obtain ⟨sets, built, _⟩ := Traversal.bind_eq_ok_iff.1 later
  exact ⟨c, sets, Traversal.mapError_eq_ok_iff.1 accepted,
    Traversal.mapError_eq_ok_iff.1 assembled, Traversal.mapError_eq_ok_iff.1 built⟩

/-- Templates of formats that are not asked for are not used. -/
theorem generate_withTemplates {templates : PerFormat String} {formats : List OutputFormat}
    (same : ∀ format ∈ formats, templates.get format = plan.templates.get format) :
    ({ plan with templates } : ReportPlan).generate identity base comparisons formats =
      plan.generate identity base comparisons formats := by
  have rendered (c : Context) (sets : List SectionSet) :
      (formats.mapM fun format => Rendered.render format (templates.get format) c sets) =
        formats.mapM fun format => Rendered.render format (plan.templates.get format) c sets :=
    Traversal.mapM_congr fun format asked => by rw [same format asked]
  unfold generate
  simp only [rendered, layout, context, sets]

section Stages

variable {formats : List OutputFormat} {stage : ReportStage} {halt : Halt}

/-- A report that cannot be prepared stops at one of the first four stages. -/
theorem stopsAt_of_not_prepared
    (unprepared : ¬ ∃ c sets, Prepared plan identity base comparisons c sets)
    (halted : plan.generate identity base comparisons formats = .error halt) :
    ∃ stage, plan.StopsAt identity base comparisons formats stage halt := by
  rcases Traversal.bind_eq_error_iff.1 halted with ended | ⟨_, accepted, later⟩
  · obtain ⟨failure, clash, rfl⟩ := Traversal.mapError_eq_error_iff.1 ended
    exact ⟨.layout, fun earlier before => absurd before (Nat.not_lt_zero _), failure, clash, rfl⟩
  replace accepted := Traversal.mapError_eq_ok_iff.1 accepted
  rcases Traversal.bind_eq_error_iff.1 later with ended | ⟨c, assembled, last⟩
  · obtain ⟨failure, missing, rfl⟩ := Traversal.mapError_eq_error_iff.1 ended
    by_cases none : comparisons = []
    · refine ⟨.runs, ?_, none, failure, missing, rfl⟩
      rintro (_ | _ | _ | _ | _) before
      · exact accepted
      all_goals exact absurd before (by decide)
    · refine ⟨.dictionary, ?_, failure, missing, rfl⟩
      rintro (_ | _ | _ | _ | _) before
      · exact accepted
      · exact none
      all_goals exact absurd before (by decide)
  replace assembled := Traversal.mapError_eq_ok_iff.1 assembled
  rcases Traversal.bind_eq_error_iff.1 last with ended | ⟨sets, built, _⟩
  · obtain ⟨failure, missing, rfl⟩ := Traversal.mapError_eq_error_iff.1 ended
    have present : comparisons ≠ [] := by
      rintro rfl
      obtain ⟨_, refused⟩ := Context.assemble_of_nil plan.registry plan.dictionary plan.chartKeys
        identity base plan.summary plan.analyses
      exact absurd (assembled.symm.trans refused) (by simp)
    refine ⟨.sections, ?_, failure, missing, rfl⟩
    rintro (_ | _ | _ | _ | _) before
    · exact accepted
    · exact present
    · exact (Context.exists_assemble_iff present).1 ⟨c, assembled⟩
    all_goals exact absurd before (by decide)
  · exact absurd ⟨c, sets, accepted, assembled, Traversal.mapError_eq_ok_iff.1 built⟩ unprepared

/-- A prepared report stops at its templates exactly when there is no report in one of its
formats. -/
theorem Prepared.generate_eq_error_iff {c : Context} {sets : List SectionSet}
    (h : Prepared plan identity base comparisons c sets) :
    plan.generate identity base comparisons formats = .error halt ↔
      plan.FirstFault identity base comparisons formats halt := by
  simp only [h.generate_eq, Traversal.mapM_eq_error_iff, h.exists_render_iff,
    h.render_eq_error_iff, FirstFault]

/-- The stages before the last one that a report stops at are those of a report that can be
prepared, if it is the last one. -/
theorem StopsAt.exists_prepared
    (h : plan.StopsAt identity base comparisons formats .templates halt) :
    ∃ c sets, Prepared plan identity base comparisons c sets := by
  refine exists_prepared_iff.2 fun stage early => h.reaches stage ?_
  cases stage <;> first | decide | exact absurd rfl early

/-- A report that stops at a stage is not generated, and this is what comes of it. -/
theorem StopsAt.generate_eq (h : plan.StopsAt identity base comparisons formats stage halt) :
    plan.generate identity base comparisons formats = .error halt := by
  cases stage with
  | layout =>
    obtain ⟨failure, clash, rfl⟩ := h.halts
    exact Traversal.bind_eq_error_iff.2 (.inl (Traversal.mapError_eq_error_iff.2
      ⟨failure, clash, rfl⟩))
  | templates =>
    obtain ⟨c, sets, prepared⟩ := h.exists_prepared
    exact prepared.generate_eq_error_iff.2 h.halts
  | runs | dictionary =>
    have accepted : Layout.check plan.layout = .ok () := h.reaches .layout (by decide)
    obtain ⟨failure, missing, rfl⟩ : ∃ failure,
        plan.context identity base comparisons = .error failure ∧ halt = .refused failure := by
      first | exact h.halts | exact h.halts.2
    rw [generate, Traversal.mapError_eq_ok_iff.2 accepted, Traversal.ok_bind]
    exact Traversal.bind_eq_error_iff.2 (.inl (Traversal.mapError_eq_error_iff.2
      ⟨failure, missing, rfl⟩))
  | sections =>
    have accepted : Layout.check plan.layout = .ok () := h.reaches .layout (by decide)
    obtain ⟨c, assembled⟩ := (Context.exists_assemble_iff (h.reaches .runs (by decide))).2
      (h.reaches .dictionary (by decide))
    obtain ⟨failure, missing, rfl⟩ := h.halts
    rw [generate, Traversal.mapError_eq_ok_iff.2 accepted, Traversal.ok_bind, context,
      Traversal.mapError_eq_ok_iff.2 assembled, Traversal.ok_bind]
    exact Traversal.bind_eq_error_iff.2 (.inl (Traversal.mapError_eq_error_iff.2
      ⟨failure, missing, rfl⟩))

/-- A report is not generated exactly when it stops at a stage. -/
theorem generate_eq_error_iff : plan.generate identity base comparisons formats = .error halt ↔
    ∃ stage, plan.StopsAt identity base comparisons formats stage halt := by
  constructor
  · intro halted
    by_cases prepared : ∃ c sets, Prepared plan identity base comparisons c sets
    · obtain ⟨c, sets, h⟩ := prepared
      refine ⟨.templates, fun earlier sooner => ?_, h.generate_eq_error_iff.1 halted⟩
      exact exists_prepared_iff.1 ⟨c, sets, h⟩ earlier fun last => absurd sooner (by simp [last])
    · exact stopsAt_of_not_prepared prepared halted
  · rintro ⟨stage, h⟩
    exact h.generate_eq

/-- A report that is refused at a stage does not pass it, and the failure is of its kind. -/
theorem StopsAt.not_passes {failure : Failure}
    (h : plan.StopsAt identity base comparisons formats stage (.refused failure)) :
    ¬ plan.Passes identity base comparisons formats stage ∧
      failure.kind ∈ stage.failureKinds := by
  cases stage with
  | layout =>
    obtain ⟨_, clash, ⟨⟩⟩ := h.halts
    refine ⟨fun accepted => ?_, List.mem_singleton.2 (Layout.kind_of_checkAfter clash)⟩
    exact absurd (clash.symm.trans accepted) (by simp)
  | runs =>
    obtain ⟨rfl, _, missing, ⟨⟩⟩ := h.halts
    obtain ⟨_, refused⟩ := Context.assemble_of_nil plan.registry plan.dictionary plan.chartKeys
      identity base plan.summary plan.analyses
    obtain rfl := Except.error.inj (missing.symm.trans refused)
    exact ⟨fun present => present rfl, List.mem_singleton_self _⟩
  | dictionary =>
    obtain ⟨_, missing, ⟨⟩⟩ := h.halts
    have present : comparisons ≠ [] := h.reaches .runs (by decide)
    refine ⟨fun documented => ?_, List.mem_singleton.2 (Context.kind_of_assemble present missing)⟩
    obtain ⟨c, assembled⟩ := (Context.exists_assemble_iff present).2 documented
    exact absurd (missing.symm.trans assembled) (by simp)
  | sections =>
    obtain ⟨_, missing, ⟨⟩⟩ := h.halts
    obtain ⟨_, part, _, _, _, absent⟩ := Traversal.mapM_eq_error_iff.1 missing
    refine ⟨fun held => ?_, SectionPlan.kind_of_buildRuns absent⟩
    obtain ⟨sets, built⟩ := exists_sets_iff.2 held
    exact absurd (missing.symm.trans built) (by simp)
  | templates =>
    obtain ⟨c, sets, prepared⟩ := h.exists_prepared
    obtain ⟨before, format, after, rfl, _, fault⟩ := h.halts
    cases fault with
    | template _ treeIn found =>
      refine ⟨fun fills => ?_, List.mem_singleton_self _⟩
      exact prepared.not_fills_of_error treeIn found (fills format (by simp))

/-- The program ends at the templates only, for a table that cannot be filled. -/
theorem StopsAt.exists_overruns
    (h : plan.StopsAt identity base comparisons formats stage .crashed) :
    stage = .templates ∧ ∃ format ∈ formats, plan.Overruns identity base comparisons format := by
  cases stage with
  | layout | dictionary | sections =>
    obtain ⟨_, _, ⟨⟩⟩ := h.halts
  | runs =>
    obtain ⟨_, _, _, ⟨⟩⟩ := h.halts
  | templates =>
    obtain ⟨before, format, after, rfl, _, fault⟩ := h.halts
    cases fault with
    | overruns wide => exact ⟨rfl, format, by simp, wide⟩

/-- A report is generated exactly when it passes every stage and no table overruns. -/
theorem exists_generate_iff :
    (∃ reports, plan.generate identity base comparisons formats = .ok reports) ↔
      (∀ stage, plan.Passes identity base comparisons formats stage) ∧
        ∀ format ∈ formats, ¬ plan.Overruns identity base comparisons format := by
  constructor
  · rintro ⟨reports, generated⟩
    obtain ⟨c, sets, h⟩ := exists_prepared_of_generate generated
    rw [h.generate_eq] at generated
    have each : ∀ format ∈ formats, _ := fun format asked =>
      h.exists_render_iff.1 (Traversal.exists_mapM_iff.1 ⟨reports, generated⟩ format asked)
    refine ⟨fun stage => ?_, fun format asked => (each format asked).2⟩
    by_cases last : stage = .templates
    · exact last ▸ fun format asked => (each format asked).1
    · exact exists_prepared_iff.1 ⟨c, sets, h⟩ stage last
  · rintro ⟨passes, narrow⟩
    obtain ⟨c, sets, h⟩ := exists_prepared_iff.2 fun stage _ => passes stage
    rw [h.generate_eq]
    exact Traversal.exists_mapM_iff.2 fun format asked =>
      h.exists_render_iff.2 ⟨passes .templates format asked, narrow format asked⟩

end Stages

/-- A report is generated exactly when it passes every stage and each of its tables can be
filled in each of the formats. Otherwise it stops at a stage after those that it passes, and
what the check of that stage comes to is what comes of the report; at the last stage the
first format without a report decides. A stage at which a report is refused is not passed,
and the failure is of the kind of the stage. The program ends only at the last stage, for a
table that cannot be filled. A report that is generated holds one text for each format in
turn, the one that the format alone would give. Sections built for a report always have
tables. -/
theorem generate_follows_stages (plan : ReportPlan) (identity : Identity) (base : Run)
    (comparisons : List Run) (formats : List OutputFormat) :
    ((∃ reports, plan.generate identity base comparisons formats = .ok reports) ↔
      (∀ stage, plan.Passes identity base comparisons formats stage) ∧
        ∀ format ∈ formats, ¬ plan.Overruns identity base comparisons format) ∧
    (∀ halt, plan.generate identity base comparisons formats = .error halt ↔
      ∃ stage, plan.StopsAt identity base comparisons formats stage halt) ∧
    (∀ stage failure, plan.StopsAt identity base comparisons formats stage (.refused failure) →
      ¬ plan.Passes identity base comparisons formats stage ∧
        failure.kind ∈ stage.failureKinds) ∧
    (∀ stage, plan.StopsAt identity base comparisons formats stage .crashed →
      stage = .templates ∧ ∃ format ∈ formats, plan.Overruns identity base comparisons format) ∧
    (∀ reports, plan.generate identity base comparisons formats = .ok reports →
      List.Forall₂ (fun format report => report.format = format ∧
        plan.generate identity base comparisons [format] = .ok [report]) formats reports) ∧
    ∀ sets, plan.sets base comparisons = .ok sets →
      ∀ set ∈ sets, ∃ t, Table.transpose set = .ok t := by
  refine ⟨exists_generate_iff, fun _ => generate_eq_error_iff, fun _ _ => StopsAt.not_passes,
    fun _ => StopsAt.exists_overruns, fun reports generated => ?_,
    fun _ => exists_transpose_of_sets⟩
  obtain ⟨c, sets, h⟩ := exists_prepared_of_generate generated
  rw [h.generate_eq] at generated
  refine (Traversal.mapM_eq_ok_iff.1 generated).imp fun format report rendered => ?_
  refine ⟨h.format_of_render rendered, ?_⟩
  rw [h.generate_eq]
  exact Traversal.mapM_eq_ok_iff.2 (.cons rendered .nil)

end ReportPlan

end RunReport
