import Mathlib.Tactic.ByContra
import RunReport.Proofs.Table.Filling
import RunReport.Proofs.Table.Transposition
import RunReport.Report.Rendering

/-!
# Rendering what was built

The sections that a layout makes of some runs follow its plans, and each of
them has a table. On such sections rendering in a format can fail in two ways
only: a table cannot be filled, which ends the program, or the template cannot be
filled in from the tree of the format. A report that is rendered carries the name of
its format and one file for each section.
-/

namespace RunReport

/-- The sections of some runs always have a table. -/
theorem SectionPlan.exists_transpose_of_buildRuns {plan : SectionPlan} {r : Registry}
    {runs : List Run} {set : SectionSet} (present : runs ≠ [])
    (built : plan.buildRuns r runs = .ok set) : ∃ t, Table.transpose set = .ok t := by
  obtain ⟨rfl, columns⟩ := columns_of_buildRuns built
  have named := fieldNames_of_columns columns
  obtain ⟨plan, entries⟩ := set
  cases entries with
  | nil => exact absurd (List.forall₂_nil_right_iff.1 columns) present
  | cons first others =>
    refine ⟨_, Table.transpose_of_aligned fun column later => ?_⟩
    exact (named column (List.mem_cons_of_mem _ later)).trans (named first List.mem_cons_self).symm

/-- The sections of a layout follow its plans in order. -/
theorem Layout.map_plan_of_built {plans : List SectionPlan} {r : Registry} {runs : List Run}
    {sets : List SectionSet} (built : plans.mapM (·.buildRuns r runs) = .ok sets) :
    sets.map (·.plan) = plans := by
  have each := Traversal.mapM_eq_ok_iff.1 built
  clear built
  induction each with
  | nil => rfl
  | cons head _ ih => rw [List.map_cons, ih, (SectionPlan.columns_of_buildRuns head).1]

/-- Every section of a layout has a table. -/
theorem Layout.exists_transpose_of_built {plans : List SectionPlan} {r : Registry}
    {runs : List Run} {sets : List SectionSet} (present : runs ≠ [])
    (built : plans.mapM (·.buildRuns r runs) = .ok sets) :
    ∀ set ∈ sets, ∃ t, Table.transpose set = .ok t := by
  have each := Traversal.mapM_eq_ok_iff.1 built
  clear built
  induction each with
  | nil => simp
  | cons head _ ih =>
    exact List.forall_mem_cons.2 ⟨SectionPlan.exists_transpose_of_buildRuns present head, ih⟩

/-- A plan and a table belong to the sections of several runs: the plan is the one
that they follow, and the table is what they are turned into. -/
structure SectionSet.HasTable (set : SectionSet) (entry : SectionPlan × Table) : Prop where
  /-- The sections follow the plan. -/
  plan_eq : entry.1 = set.plan
  /-- The sections are turned into the table. -/
  turned : Table.transpose set = .ok entry.2

/-- Sections that can all be turned into tables have one table each. -/
theorem SectionSet.exists_tables {sets : List SectionSet}
    (tables : ∀ set ∈ sets, ∃ t, Table.transpose set = .ok t) :
    ∃ entries, List.Forall₂ HasTable sets entries := by
  induction sets with
  | nil => exact ⟨[], .nil⟩
  | cons set rest ih =>
    obtain ⟨⟨t, turned⟩, others⟩ := List.forall_mem_cons.1 tables
    obtain ⟨entries, each⟩ := ih others
    exact ⟨(set.plan, t) :: entries, .cons ⟨rfl, turned⟩ each⟩

/-- The tables of sections are determined by the sections. -/
theorem SectionSet.tables_unique {sets : List SectionSet}
    {entries others : List (SectionPlan × Table)}
    (each : List.Forall₂ HasTable sets entries) (too : List.Forall₂ HasTable sets others) :
    entries = others := by
  have unique : Relator.RightUnique HasTable := fun set entry other h too =>
    Prod.ext (h.plan_eq.trans too.plan_eq.symm) (Except.ok.inj (h.turned.symm.trans too.turned))
  exact unique.forall₂ each too

namespace Rendered

variable {format : OutputFormat} {sets : List SectionSet} {entries : List (SectionPlan × Table)}
  {texts : List (SectionPlan × String)}

/-- Tables as text in a format, each beside the plan of its section. -/
def textsOf (format : OutputFormat) (entries : List (SectionPlan × Table)) :
    List (SectionPlan × String) :=
  entries.map fun entry => (entry.1, format.table entry.2)

/-- The texts stand beside the plans of the sections. -/
theorem map_plan_textsOf (format : OutputFormat) (entries : List (SectionPlan × Table)) :
    (textsOf format entries).map (·.1) = entries.map (·.1) := List.map_map

/-- The plans of sections with tables are theirs. -/
theorem map_plan_of_tables (each : List.Forall₂ SectionSet.HasTable sets entries) :
    entries.map (·.1) = sets.map (·.plan) := by
  induction each with
  | nil => rfl
  | cons head _ ih => rw [List.map_cons, List.map_cons, ih, head.plan_eq]

/-- The tree of a format with the tables of the given sections. -/
def treeOf (format : OutputFormat) (c : Context) (entries : List (SectionPlan × Table)) : Json :=
  tree format c (format.table c.manifest) (textsOf format entries)

/-- Every table of a report can be filled in a format: that of the runs and those of the
sections. -/
def Fillable (format : OutputFormat) (c : Context) (entries : List (SectionPlan × Table)) : Prop :=
  ∀ t ∈ c.manifest :: entries.map (·.2), format.overruns t = false

instance (format : OutputFormat) (c : Context) (entries : List (SectionPlan × Table)) :
    Decidable (Fillable format c entries) :=
  inferInstanceAs (Decidable (∀ t ∈ c.manifest :: entries.map (·.2), format.overruns t = false))

/-- In LaTeX every table can be filled. -/
theorem fillable_latex (c : Context) (entries : List (SectionPlan × Table)) :
    Fillable .latex c entries := fun _ _ => rfl

/-- Sections have texts exactly when they can all be turned into tables that can be filled,
and the texts are these tables in the format. -/
theorem tableTexts_eq_ok_iff : tableTexts format sets = .ok texts ↔
    ∃ entries, List.Forall₂ SectionSet.HasTable sets entries ∧
      (∀ entry ∈ entries, format.overruns entry.2 = false) ∧ texts = textsOf format entries := by
  constructor
  · intro h
    induction sets generalizing texts with
    | nil => exact ⟨[], .nil, by simp, (Except.ok.inj h).symm⟩
    | cons set rest ih =>
      obtain ⟨t, turned, h⟩ := Traversal.bind_eq_ok_iff.1 h
      obtain ⟨text, written, h⟩ := Traversal.bind_eq_ok_iff.1 h
      obtain ⟨others, later, h⟩ := Traversal.bind_eq_ok_iff.1 h
      obtain rfl := Except.ok.inj h
      obtain ⟨filled, rfl⟩ := OutputFormat.write_eq_ok_iff.1 written
      obtain ⟨entries, each, narrow, rfl⟩ := ih later
      exact ⟨(set.plan, t) :: entries,
        .cons ⟨rfl, Traversal.mapError_eq_ok_iff.1 turned⟩ each,
        List.forall_mem_cons.2 ⟨filled, narrow⟩, rfl⟩
  · rintro ⟨entries, each, narrow, rfl⟩
    induction each with
    | nil => rfl
    | cons head _ ih =>
      obtain ⟨filled, narrow⟩ := List.forall_mem_cons.1 narrow
      rw [tableTexts, Traversal.mapError_eq_ok_iff.2 head.turned, Traversal.ok_bind,
        OutputFormat.write_eq_ok_iff.2 ⟨filled, rfl⟩, Traversal.ok_bind, ih narrow, ← head.plan_eq]
      rfl

/-- Sections with a table that cannot be filled end the program. -/
theorem tableTexts_of_overruns (each : List.Forall₂ SectionSet.HasTable sets entries)
    (wide : ∃ entry ∈ entries, format.overruns entry.2 = true) :
    tableTexts format sets = .error .crashed := by
  induction each with
  | nil =>
    obtain ⟨_, none, _⟩ := wide
    cases none
  | @cons set entry sets entries head _ ih =>
    rw [tableTexts, Traversal.mapError_eq_ok_iff.2 head.turned, Traversal.ok_bind]
    by_cases here : format.overruns entry.2 = true
    · rw [OutputFormat.write_of_overruns here, Traversal.error_bind]
    · rw [OutputFormat.write_eq_ok_iff.2 ⟨Bool.not_eq_true _ ▸ here, rfl⟩, Traversal.ok_bind]
      obtain ⟨other, given, beyond⟩ := wide
      rcases List.mem_cons.1 given with rfl | later
      · exact absurd beyond here
      · rw [ih ⟨other, later, beyond⟩, Traversal.error_bind]

/-- The report in a format whose filled in template is the given text. -/
def ofText (format : OutputFormat) (template : String) (c : Context)
    (entries : List (SectionPlan × Table)) (text : String) : Rendered :=
  { format, text, filename := reportFile format c
    tables := entries.map fun entry =>
      ⟨entry.1.targetFile ++ "." ++ format.extension, format.table entry.2⟩
    templateSource := template
    contextJson := (treeOf format c entries).pretty }

section Tables

variable {template : String} {c : Context} (accepted : Layout.check (sets.map (·.plan)) = .ok ())
  (each : List.Forall₂ SectionSet.HasTable sets entries)

include accepted each

/-- On an accepted layout whose tables can be filled, the template decides. -/
theorem render_of_fillable (fillable : Fillable format c entries) :
    render format template c sets = match Template.render template (treeOf format c entries) with
      | .ok text => .ok (ofText format template c entries text)
      | .error fault => .error (.refused (.templateError format.name fault.message)) := by
  obtain ⟨list, others⟩ := List.forall_mem_cons.1 fillable
  have texts := tableTexts_eq_ok_iff.2 ⟨entries, each, List.forall_mem_map.1 others, rfl⟩
  rw [render, Traversal.mapError_eq_ok_iff.2 accepted, Traversal.ok_bind,
    OutputFormat.write_eq_ok_iff.2 ⟨list, rfl⟩, Traversal.ok_bind, texts, Traversal.ok_bind,
    ← treeOf]
  dsimp only
  cases Template.render template (treeOf format c entries) with
  | error fault => rfl
  | ok text =>
    rw [textsOf, List.map_map]
    rfl

/-- On an accepted layout with a table that cannot be filled, the program ends, whatever the
template. -/
theorem render_of_not_fillable (wide : ¬ Fillable format c entries) :
    render format template c sets = .error .crashed := by
  rw [render, Traversal.mapError_eq_ok_iff.2 accepted, Traversal.ok_bind]
  by_cases list : format.overruns c.manifest = true
  · rw [OutputFormat.write_of_overruns list, Traversal.error_bind]
  · have narrow : format.overruns c.manifest = false := Bool.not_eq_true _ ▸ list
    have texts : tableTexts format sets = .error .crashed := by
      refine tableTexts_of_overruns each ?_
      by_contra none
      refine wide (List.forall_mem_cons.2 ⟨narrow, List.forall_mem_map.2 fun entry given => ?_⟩)
      by_contra beyond
      exact none ⟨entry, given, by simpa using beyond⟩
    rw [OutputFormat.write_eq_ok_iff.2 ⟨narrow, rfl⟩, Traversal.ok_bind, texts,
      Traversal.error_bind]

/-- A report in a format is its template filled in from the tree of the format, and its
tables can be filled. -/
theorem render_eq_ok_iff_of_tables {report : Rendered} :
    render format template c sets = .ok report ↔
      Fillable format c entries ∧ ∃ text,
        Template.render template (treeOf format c entries) = .ok text ∧
          report = ofText format template c entries text := by
  by_cases fillable : Fillable format c entries
  · rw [render_of_fillable accepted each fillable]
    cases Template.render template (treeOf format c entries) with
    | ok text => simp [fillable, eq_comm]
    | error fault => simp
  · rw [render_of_not_fillable accepted each fillable]
    simp [fillable]

/-- A report in a format is not rendered for one of two reasons: a table cannot be filled, or
the template cannot be filled in. -/
theorem render_eq_error_iff_of_tables {halt : Halt} :
    render format template c sets = .error halt ↔
      ¬ Fillable format c entries ∧ halt = .crashed ∨
        Fillable format c entries ∧ ∃ fault,
          Template.render template (treeOf format c entries) = .error fault ∧
            halt = .refused (.templateError format.name fault.message) := by
  by_cases fillable : Fillable format c entries
  · rw [render_of_fillable accepted each fillable]
    cases Template.render template (treeOf format c entries) with
    | ok text => simp [fillable]
    | error fault => simp [fillable, eq_comm]
  · rw [render_of_not_fillable accepted each fillable]
    simp [fillable, eq_comm]

end Tables

end Rendered

end RunReport
