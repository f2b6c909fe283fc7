import RunReport.Metric.Catalogue
import RunReport.Proofs.Distribution.Rules
import RunReport.Proofs.Section.Rows
import RunReport.Report.Context
import RunReport.Table.Basic

/-!
# Rows become columns

Sections are turned into a table when all of them show the same field names in
the same order. The sections that a plan makes of several runs always do, so
their table exists, and it has one row for each field of the plan and one
column for each run. The cell in row `i` and column `j` shows field `i` of run
`j`; nothing is lost, repeated or moved to another run.
-/

namespace RunReport

namespace Table

/-- Lists have no stranger exactly when one of them begins with all of the other. -/
theorem firstStranger_eq_none_iff {expected found : List String} :
    firstStranger expected found = none ↔ expected <+: found ∨ found <+: expected := by
  induction expected generalizing found with
  | nil => simp [firstStranger]
  | cons name names ih =>
    cases found with
    | nil => simp [firstStranger]
    | cons other others =>
      rw [firstStranger, List.cons_prefix_cons, List.cons_prefix_cons]
      by_cases same : name = other
      · simp [same, ih]
      · simp [same, Ne.symm same]

/-- A section does not depart from expected names exactly when it has them. -/
theorem departure?_eq_none_iff {expected : List String} {s : Section} :
    departure? expected s = none ↔ s.fieldNames = expected := by
  have size : s.fieldNames.length = s.rows.length := List.length_map _
  unfold departure?
  cases stranger : firstStranger expected s.fieldNames with
  | some found =>
    refine iff_of_false (by simp) fun same => ?_
    have whole : expected <+: s.fieldNames := same ▸ List.prefix_rfl
    exact absurd (firstStranger_eq_none_iff.2 (Or.inl whole)) (by simp [stranger])
  | none =>
    by_cases length : s.rows.length = expected.length
    · rw [if_pos length]
      refine iff_of_true rfl ?_
      rcases firstStranger_eq_none_iff.1 stranger with begins | begins
      · exact (begins.eq_of_length (length.symm.trans size.symm)).symm
      · exact begins.eq_of_length (size.trans length)
    · rw [if_neg length]
      refine iff_of_false (by simp) fun same => length ?_
      rw [← size, same]

/-- No section departs exactly when all have the expected names. -/
theorem firstDeparture_eq_none_iff {dataRef : String} {expected : List String}
    {columns : List RunSection} :
    firstDeparture dataRef expected columns = none ↔
      ∀ column ∈ columns, column.content.fieldNames = expected := by
  induction columns with
  | nil => simp [firstDeparture]
  | cons column rest ih =>
    unfold firstDeparture
    rw [List.forall_mem_cons, ← departure?_eq_none_iff, ← ih]
    cases departure? expected column.content with
    | none => simp
    | some found => simp

/-- Sections with the same field names have a table. -/
theorem transpose_of_aligned {plan : SectionPlan} {first : RunSection} {others : List RunSection}
    (aligned : ∀ column ∈ others, column.content.fieldNames = first.content.fieldNames) :
    transpose ⟨plan, first :: others⟩ = .ok (ofAligned plan first (first :: others)) := by
  simp only [transpose, firstDeparture_eq_none_iff.2 aligned]

end Table

/-- Rows that show fields show at each place the field of that place. -/
theorem RowsShow.row_at {run : Run} {category : Category} {fields : List Field} {rows : List Row}
    (h : RowsShow run category fields rows) {i : Nat} {f : Field} (hf : fields[i]? = some f) :
    ∃ text, f.Shows run category text ∧ rows[i]? = some ⟨f.name, f.label, text, f.width⟩ := by
  induction h generalizing i with
  | nil => simp at hf
  | cons shown _ ih =>
    cases i with
    | zero =>
      obtain ⟨text, shows, rfl⟩ := shown
      obtain rfl : _ = f := by simpa using hf
      exact ⟨text, shows, rfl⟩
    | succ i => exact ih (by simpa using hf)

/-- The columns of a plan all show the names of its fields. -/
theorem SectionPlan.fieldNames_of_columns {plan : SectionPlan} {r : Registry} {runs : List Run}
    {columns : List RunSection} (h : List.Forall₂ (plan.ColumnOf r) runs columns) :
    ∀ column ∈ columns, column.content.fieldNames = (plan.fields r).map (·.name) := by
  induction h with
  | nil => simp
  | cons head _ ih => exact List.forall_mem_cons.2 ⟨head.2.names, ih⟩

/-- The cell of a column in the row of a field shows the field of that run. -/
theorem SectionPlan.ColumnOf.shows_valueAt {plan : SectionPlan} {r : Registry} {run : Run}
    {column : RunSection} (h : plan.ColumnOf r run column) {i : Nat} {f : Field}
    (hf : (plan.fields r)[i]? = some f) :
    f.Shows run plan.category (column.content.valueAt i) := by
  obtain ⟨text, shows, row⟩ := h.2.row_at hf
  simpa only [Section.valueAt, row] using shows

/-- The table of columns that belong to runs has one row for each field, whose
cells show the field in each run. -/
theorem Table.rows_ofAligned {plan : SectionPlan} {r : Registry} {runs : List Run}
    {run : Run} {first : RunSection} {columns : List RunSection}
    (hfirst : plan.ColumnOf r run first)
    (hcolumns : List.Forall₂ (plan.ColumnOf r) runs columns) :
    List.Forall₂ (fun f (row : TableRow) => row.label = f.label ∧ row.width = f.width ∧
      List.Forall₂ (fun run text => f.Shows run plan.category text) runs row.values)
      (plan.fields r) (ofAligned plan first columns).rows := by
  have size : (plan.fields r).length = first.content.rows.length := hfirst.2.length_eq
  refine List.forall₂_iff_get.2 ⟨by simpa [ofAligned] using size, fun i hf hrow => ?_⟩
  have field : (plan.fields r)[i]? = some ((plan.fields r).get ⟨i, hf⟩) :=
    List.getElem?_eq_getElem hf
  obtain ⟨text, _, row⟩ := hfirst.2.row_at field
  have inside : i < first.content.rows.length := size ▸ hf
  have head := (List.getElem_eq_iff inside).2 row
  simp only [ofAligned, List.get_eq_getElem, List.getElem_mapIdx] at head ⊢
  rw [head]
  refine ⟨rfl, rfl, List.forall₂_map_right_iff.2 (hcolumns.imp fun run column h => ?_)⟩
  exact h.shows_valueAt field

/-- A table presents the runs under a plan: its headings name the runs in
order, its rows are the fields of the plan in declaration order, each cell
shows the field of its row in the run of its column, and the description of
the section tells of the same fields under the same labels and widths. -/
structure Table.Presents (t : Table) (r : Registry) (plan : SectionPlan) (runs : List Run) :
    Prop where
  /-- Title, key and heading of the labels are those of the plan. -/
  names : t.title = plan.title ∧ t.dataRef = plan.dataRef ∧ t.nameColumn = plan.nameColumn
  /-- One column for each run, headed by its tag. -/
  headers : t.headers = runs.map fun run => plan.valueColumn ++ " (" ++ run.tag ++ ")"
  /-- The fields are declared ones in the order of their declaration. -/
  declared : plan.fields r =
    r.fields.filter fun f => f.appliesTo plan.category && plan.selector.selects f
  /-- No field has two rows. -/
  distinct : ((plan.fields r).map (·.name)).Nodup
  /-- One row for each field, with one cell for each run that shows it. -/
  rows : List.Forall₂ (fun f (row : TableRow) => row.label = f.label ∧ row.width = f.width ∧
    List.Forall₂ (fun run text => f.Shows run plan.category text) runs row.values)
    (plan.fields r) t.rows
  /-- The description lists the same fields with the rows' labels and widths. -/
  described : List.Forall₂ (fun f (d : FieldDescription) => d.name = f.name ∧
    d.definition.shortDescription = f.label ∧ d.width = f.width)
    (plan.fields r) (SectionDescription.ofPlan plan r).fields

/-- The headings of the table name the runs of its columns. -/
theorem Table.headers_ofAligned {plan : SectionPlan} {r : Registry} {runs : List Run}
    {first : RunSection} {columns : List RunSection}
    (hcolumns : List.Forall₂ (plan.ColumnOf r) runs columns) :
    (ofAligned plan first columns).headers =
      runs.map fun run => plan.valueColumn ++ " (" ++ run.tag ++ ")" := by
  have tags : columns.map (·.tag) = runs.map (·.tag) := by
    induction hcolumns with
    | nil => rfl
    | cons head _ ih => rw [List.map_cons, List.map_cons, head.1, ih]
  have named := congrArg (List.map fun tag => plan.valueColumn ++ " (" ++ tag ++ ")") tags
  simpa only [ofAligned, List.map_map, Function.comp_def] using named

/-- The description of a section tells of the fields of its plan in order. -/
theorem SectionDescription.fields_ofPlan (plan : SectionPlan) (r : Registry) :
    List.Forall₂ (fun f (d : FieldDescription) => d.name = f.name ∧
      d.definition.shortDescription = f.label ∧ d.width = f.width)
      (plan.fields r) (SectionDescription.ofPlan plan r).fields :=
  List.forall₂_map_right_iff.2 (List.forall₂_same.2 fun _ _ => ⟨rfl, rfl, rfl⟩)

/-- Sections that a plan has built for some runs always have a table, and the
table presents these runs: no row, column or cell is lost, repeated, moved or
taken from another run. -/
theorem SectionPlan.presents_of_buildRuns {plan : SectionPlan} {r : Registry} {runs : List Run}
    {set : SectionSet} (present : runs ≠ []) (built : plan.buildRuns r runs = .ok set) :
    ∃ t, Table.transpose set = .ok t ∧ t.Presents r plan runs := by
  obtain ⟨rfl, hcolumns⟩ := columns_of_buildRuns built
  obtain ⟨plan, columns⟩ := set
  cases hcolumns with
  | nil => exact absurd rfl present
  | cons hfirst hothers =>
    rename_i run first runs others
    have all := List.Forall₂.cons hfirst hothers
    have named := fieldNames_of_columns all
    have aligned : ∀ column ∈ others, column.content.fieldNames = first.content.fieldNames :=
      fun column hc => (named column (List.mem_cons_of_mem _ hc)).trans
        (named first List.mem_cons_self).symm
    exact ⟨_, Table.transpose_of_aligned aligned,
      { names := ⟨rfl, rfl, rfl⟩
        headers := Table.headers_ofAligned all
        declared := fields_eq_filter plan r
        distinct := nodup_fieldNames plan r
        rows := Table.rows_ofAligned hfirst all
        described := SectionDescription.fields_ofPlan plan r }⟩

/-- A run in which every distribution is that of one sample of the given level. -/
def Run.level (tag : String) (level : Nat) : Run :=
  let x := Binary64.ofNat level
  { metadata :=
      { tag, batch := "nightly", profile := "bench", era := "era"
        timestamp := ⟨⟨2024, 2, 29⟩, ⟨12, 0, 0, 0⟩, by decide, by decide⟩
        manifest := ⟨"node", "master", "0123456789", "1.0"⟩
        generator := ⟨x, 0, 0, 0, none⟩ }
    summary := ⟨1, 0, 0, 0, 0, x, x⟩
    machines := ⟨machineMetrics.map fun _ => Distribution.constant 1 level, List.length_map _⟩
    propagation := ⟨propagationMetrics.map fun _ => Distribution.constant 1 level, List.length_map _⟩ }

/-- A plan that names its fields against the order of their declaration. -/
def SectionPlan.memory : SectionPlan :=
  ofKey "Memory" "memory" .machinePerformance (Selector.names ["rss", "cpu_gc"])

/-- Two runs under one heading have a table that presents them. -/
theorem SectionPlan.presents_two_runs :
    [Run.level "a" 1, Run.level "a" 2] ≠ [] ∧
      ∃ set, memory.buildRuns Registry.standard [Run.level "a" 1, Run.level "a" 2] = .ok set ∧
        ∃ t, Table.transpose set = .ok t ∧
          t.Presents Registry.standard memory [Run.level "a" 1, Run.level "a" 2] := by
  have present : [Run.level "a" 1, Run.level "a" 2] ≠ [] := List.cons_ne_nil _ _
  have succeeds :
      (memory.buildRuns Registry.standard [Run.level "a" 1, Run.level "a" 2]).isOk = true := by
    decide +kernel
  cases built : memory.buildRuns Registry.standard [Run.level "a" 1, Run.level "a" 2] with
  | error cause =>
    rw [built] at succeeds
    exact absurd succeeds (by simp [Except.isOk, Except.toBool])
  | ok set => exact ⟨present, set, rfl, presents_of_buildRuns present built⟩

example : ((SectionPlan.memory.buildRuns Registry.standard
    [Run.level "a" 1, Run.level "a" 2]).bind Table.transpose).toOption.map (·.rows) =
      some [⟨"CPU GC", ["1.0", "2.0"], 5⟩, ⟨"RSS", ["1", "2"], 6⟩] := by
  decide +kernel

end RunReport
