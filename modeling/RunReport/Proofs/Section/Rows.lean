import RunReport.Proofs.Traversal
import RunReport.Section.Basic

/-!
# What a section shows

A cell shows a field of a run when it is the text of the one number that the
run holds for the field: the instant value, or the declared statistic of the
distribution. A field is refused when the table does not hold it in its kind, or
when its percentile is not on the grid. Building a section succeeds exactly when
every chosen field can be shown, and its rows are then the chosen fields in
declaration order, each with its own text. Building over several runs keeps the runs in their order.
-/

namespace RunReport

/-- The text shows what the run's table of the category holds for the field. -/
inductive Field.Shows (f : Field) (run : Run) (category : Category) : String → Prop
  /-- The value of an instant field. -/
  | instant {x : Binary64} (kind : f.kind = .instant)
    (held : run.instant? category f.name = some x) : Shows f run category (x.fixed f.precision)
  /-- The declared statistic of the distribution of a distributional field. -/
  | distributional {shown : Statistic} {d : Distribution Binary64} {x : Binary64}
    (kind : f.kind = .distributional shown) (held : run.distribution? category f.name = some d)
    (read : d.statistic? shown = some x) : Shows f run category (x.fixed f.precision)

/-- Why what the run's table of the category holds cannot be shown for the field, the
table being named by `place`. -/
inductive Field.Refused (f : Field) (run : Run) (category : Category) (place : String) :
    Failure → Prop
  /-- The table has no value of an instant field. -/
  | noValue (kind : f.kind = .instant) (absent : run.instant? category f.name = none) :
    Refused f run category place (.unknownField f.name place)
  /-- The table has no distribution of a distributional field. -/
  | noDistribution {shown : Statistic} (kind : f.kind = .distributional shown)
    (absent : run.distribution? category f.name = none) :
    Refused f run category place (.unknownField f.name place)
  /-- The declared percentile is not on the grid of the distribution. -/
  | offGrid {p : Binary64} {d : Distribution Binary64}
    (kind : f.kind = .distributional (.percentile p))
    (held : run.distribution? category f.name = some d)
    (off : ∀ q ∈ d.grid, Distribution.sameGridPoint q p = false) :
    Refused f run category place (.invalidDistribution
      ("no percentile " ++ (Statistic.percentile p).text ++ " on grid " ++
        Failure.numberList d.grid))

/-- A number is written with any count of decimal places that is natural. -/
theorem Binary64.fixed?_natCast (x : Binary64) (places : Nat) :
    x.fixed? (places : Int) = .ok (x.fixed places) := by
  have nonneg : ¬ (places : Int) < 0 := by omega
  rw [Binary64.fixed?, if_neg nonneg, Int.toNat_natCast]

/-- A statistic is written exactly when the distribution has it. -/
theorem Distribution.statisticText_eq_ok_iff {d : Distribution Binary64} {shown : Statistic}
    {places : Nat} {text : String} :
    d.statisticText shown (places : Int) = .ok text ↔
      ∃ x, d.statistic? shown = some x ∧ text = x.fixed places := by
  unfold Distribution.statisticText
  cases d.statistic? shown with
  | none => simp
  | some x => simp [Binary64.fixed?_natCast, eq_comm]

/-- A distribution has every statistic but a percentile that is not on its grid. -/
theorem Distribution.statistic?_eq_none_iff {d : Distribution Binary64} {shown : Statistic} :
    d.statistic? shown = none ↔
      ∃ p, shown = .percentile p ∧ ∀ q ∈ d.grid, sameGridPoint q p = false := by
  cases shown with
  | percentile p => simp [statistic?, percentile?, grid]
  | centrality | spread | low | high | count => simp [statistic?]

/-- A statistic is refused exactly when the distribution does not have it. -/
theorem Distribution.statisticText_eq_error_iff {d : Distribution Binary64} {shown : Statistic}
    {places : Nat} {failure : Failure} :
    d.statisticText shown (places : Int) = .error failure ↔ d.statistic? shown = none ∧
      failure = .invalidDistribution
        ("no percentile " ++ shown.text ++ " on grid " ++ Failure.numberList d.grid) := by
  unfold Distribution.statisticText
  cases d.statistic? shown with
  | none => simp [eq_comm]
  | some x => simp [Binary64.fixed?_natCast]

namespace Field

/-- A field has a text exactly when the run holds something to show for it. -/
theorem shownValue_eq_ok_iff {f : Field} {run : Run} {category : Category} {place text : String} :
    f.shownValue run category place = .ok text ↔ f.Shows run category text := by
  unfold shownValue
  cases kind : f.kind with
  | instant =>
    constructor
    · intro h
      cases held : run.instant? category f.name with
      | none => simp [held] at h
      | some x =>
        simp only [held, Binary64.fixed?_natCast, Except.ok.injEq] at h
        exact h ▸ .instant kind held
    · intro h
      cases h with
      | instant _ held => simp only [held, Binary64.fixed?_natCast]
      | distributional other => simp [kind] at other
  | distributional shown =>
    constructor
    · intro h
      cases held : run.distribution? category f.name with
      | none => simp [held] at h
      | some d =>
        simp only [held, Distribution.statisticText_eq_ok_iff] at h
        obtain ⟨x, read, rfl⟩ := h
        exact .distributional kind held read
    · intro h
      cases h with
      | instant other => simp [kind] at other
      | distributional other held read =>
        obtain rfl : _ = shown := by simpa [kind] using other.symm
        simp only [held]
        exact Distribution.statisticText_eq_ok_iff.2 ⟨_, read, rfl⟩

/-- A field has no text exactly when the run holds nothing to show for it. -/
theorem shownValue_eq_error_iff {f : Field} {run : Run} {category : Category} {place : String}
    {failure : Failure} :
    f.shownValue run category place = .error failure ↔
      f.Refused run category place failure := by
  unfold shownValue
  constructor
  · intro h
    cases kind : f.kind with
    | instant =>
      cases held : run.instant? category f.name with
      | none =>
        simp only [kind, held] at h
        exact Except.error.inj h ▸ .noValue kind held
      | some x => simp [kind, held, Binary64.fixed?_natCast] at h
    | distributional shown =>
      cases held : run.distribution? category f.name with
      | none =>
        simp only [kind, held] at h
        exact Except.error.inj h ▸ .noDistribution kind held
      | some d =>
        simp only [kind, held, Distribution.statisticText_eq_error_iff] at h
        obtain ⟨missing, rfl⟩ := h
        obtain ⟨p, rfl, off⟩ := Distribution.statistic?_eq_none_iff.1 missing
        exact .offGrid kind held off
  · rintro (⟨kind, absent⟩ | ⟨kind, absent⟩ | ⟨kind, held, off⟩)
    · simp only [kind, absent]
    · simp only [kind, absent]
    · simp only [kind, held]
      have missing := Distribution.statistic?_eq_none_iff.2 ⟨_, rfl, off⟩
      exact Distribution.statisticText_eq_error_iff.2 ⟨missing, rfl⟩

/-- A row carries the name, label and width of its field and shows the run's
value of it. -/
theorem row_eq_ok_iff {f : Field} {run : Run} {category : Category} {place : String} {row : Row} :
    f.row run category place = .ok row ↔
      ∃ text, f.Shows run category text ∧ row = ⟨f.name, f.label, text, f.width⟩ := by
  rw [Field.row, Traversal.map_eq_ok_iff]
  constructor
  · rintro ⟨text, shown, rfl⟩
    exact ⟨text, shownValue_eq_ok_iff.1 shown, rfl⟩
  · rintro ⟨text, shown, rfl⟩
    exact ⟨text, shownValue_eq_ok_iff.2 shown, rfl⟩

/-- A field has a row exactly when the run holds something to show for it. -/
theorem exists_row_iff {f : Field} {run : Run} {category : Category} {place : String} :
    (∃ row, f.row run category place = .ok row) ↔ ∃ text, f.Shows run category text := by
  simp only [Field.row, Traversal.exists_map_iff, shownValue_eq_ok_iff]

/-- A row is refused as the text of its field is. -/
theorem row_eq_error_iff {f : Field} {run : Run} {category : Category} {place : String}
    {failure : Failure} :
    f.row run category place = .error failure ↔ f.Refused run category place failure := by
  rw [Field.row, Traversal.map_eq_error_iff, shownValue_eq_error_iff]

/-- What is missing in one place is refused like what is missing in another. -/
theorem exists_refused_missingIn_iff {f : Field} {run : Run} {category : Category}
    {place other : String} {failure : Failure} :
    (∃ cause, f.Refused run category place cause ∧ cause.missingIn other = failure) ↔
      f.Refused run category other failure := by
  constructor
  · rintro ⟨_, ⟨kind, absent⟩ | ⟨kind, absent⟩ | ⟨kind, held, off⟩, rfl⟩
    · exact .noValue kind absent
    · exact .noDistribution kind absent
    · exact .offGrid kind held off
  · rintro (⟨kind, absent⟩ | ⟨kind, absent⟩ | ⟨kind, held, off⟩)
    · exact ⟨_, .noValue kind absent, rfl⟩
    · exact ⟨_, .noDistribution kind absent, rfl⟩
    · exact ⟨_, .offGrid kind held off, rfl⟩

end Field

/-- Rows that show the given fields of a run, one for each field and in order. -/
def RowsShow (run : Run) (category : Category) : List Field → List Row → Prop :=
  List.Forall₂ fun f row =>
    ∃ text, f.Shows run category text ∧ row = ⟨f.name, f.label, text, f.width⟩

/-- The fields that a plan shows are those that a section has rows for. -/
theorem Registry.rows_eq_mapM_fields (plan : SectionPlan) (r : Registry) (run : Run)
    (place : String) : r.rows run plan.category plan.selector place =
      (plan.fields r).mapM fun f => f.row run plan.category place := rfl

/-- The rows of a run are those that show the fields of a plan. -/
theorem Registry.rows_eq_ok_iff {r : Registry} {run : Run} {plan : SectionPlan} {place : String}
    {rows : List Row} : r.rows run plan.category plan.selector place = .ok rows ↔
      RowsShow run plan.category (plan.fields r) rows := by
  simp only [Registry.rows_eq_mapM_fields, Traversal.mapM_eq_ok_iff, Field.row_eq_ok_iff, RowsShow]

/-- The rows of a run are refused for the first field that cannot be shown. -/
theorem Registry.rows_eq_error_iff {r : Registry} {run : Run} {plan : SectionPlan}
    {place : String} {failure : Failure} :
    r.rows run plan.category plan.selector place = .error failure ↔
      ∃ before f after, plan.fields r = before ++ f :: after ∧
        (∀ g ∈ before, ∃ text, g.Shows run plan.category text) ∧
        f.Refused run plan.category place failure := by
  simp only [Registry.rows_eq_mapM_fields, Traversal.mapM_eq_error_iff, Field.exists_row_iff,
    Field.row_eq_error_iff]

/-- Rows that show fields have their names. -/
theorem RowsShow.names {run : Run} {category : Category} {fields : List Field} {rows : List Row}
    (h : RowsShow run category fields rows) : rows.map (·.field) = fields.map (·.name) := by
  induction h with
  | nil => rfl
  | cons shown _ ih =>
    obtain ⟨text, _, rfl⟩ := shown
    simp only [List.map_cons, ih]

namespace SectionPlan

/-- A section is built exactly when its rows show the fields of the plan. -/
theorem build_eq_ok_iff {plan : SectionPlan} {r : Registry} {run : Run} {s : Section} :
    plan.build r run = .ok s ↔
      ∃ rows, RowsShow run plan.category (plan.fields r) rows ∧
        s = ⟨plan.title, plan.nameColumn, plan.valueColumn, plan.dataRef, plan.targetFile, rows⟩ := by
  simp only [build, Section.build, Traversal.map_eq_ok_iff, Traversal.mapError_eq_ok_iff,
    Registry.rows_eq_ok_iff]
  constructor
  · rintro ⟨_, ⟨rows, shown, rfl⟩, rfl⟩
    exact ⟨rows, shown, rfl⟩
  · rintro ⟨rows, shown, rfl⟩
    exact ⟨_, ⟨rows, shown, rfl⟩, rfl⟩

/-- A section is built exactly when every field of the plan can be shown. -/
theorem exists_build_iff {plan : SectionPlan} {r : Registry} {run : Run} :
    (∃ s, plan.build r run = .ok s) ↔
      ∀ f ∈ plan.fields r, ∃ text, f.Shows run plan.category text := by
  simp only [build, Section.build, Traversal.exists_map_iff, Traversal.mapError_eq_ok_iff,
    Registry.rows_eq_mapM_fields, Traversal.exists_mapM_iff, Field.exists_row_iff]

/-- A section is refused for the first field of the plan that cannot be shown. -/
theorem build_eq_error_iff {plan : SectionPlan} {r : Registry} {run : Run} {failure : Failure} :
    plan.build r run = .error failure ↔ ∃ before f after, plan.fields r = before ++ f :: after ∧
      (∀ g ∈ before, ∃ text, g.Shows run plan.category text) ∧
      f.Refused run plan.category (plan.category.name ++ " of run '" ++ run.tag ++ "'")
        failure := by
  simp only [build, Section.build, Traversal.map_eq_error_iff, Traversal.mapError_eq_error_iff,
    Registry.rows_eq_error_iff]
  constructor
  · rintro ⟨cause, ⟨before, f, after, split, shown, refused⟩, same⟩
    exact ⟨before, f, after, split, shown,
      Field.exists_refused_missingIn_iff.1 ⟨cause, refused, same⟩⟩
  · rintro ⟨before, f, after, split, shown, refused⟩
    obtain ⟨cause, refused, same⟩ :=
      (@Field.exists_refused_missingIn_iff f run _ plan.category.name _ _).2 refused
    exact ⟨cause, ⟨before, f, after, split, shown, refused⟩, same⟩

/-- The column of a run in a set: its tag, and rows that show the plan's fields. -/
def ColumnOf (plan : SectionPlan) (r : Registry) (run : Run) (column : RunSection) : Prop :=
  column.tag = run.tag ∧ RowsShow run plan.category (plan.fields r) column.content.rows

/-- Sections of several runs make one column for each run, in run order. -/
theorem columns_of_buildRuns {plan : SectionPlan} {r : Registry} {runs : List Run}
    {set : SectionSet} (built : plan.buildRuns r runs = .ok set) :
    set.plan = plan ∧ List.Forall₂ (plan.ColumnOf r) runs set.columns := by
  obtain ⟨columns, each, rfl⟩ := Traversal.map_eq_ok_iff.1 built
  refine ⟨rfl, (Traversal.mapM_eq_ok_iff.1 each).imp fun run column h => ?_⟩
  obtain ⟨s, hs, rfl⟩ := Traversal.map_eq_ok_iff.1 h
  obtain ⟨rows, shown, rfl⟩ := build_eq_ok_iff.1 hs
  exact ⟨rfl, shown⟩

/-- The fields of a plan are the declared ones that its category holds and its
selector chooses, in declaration order. -/
theorem fields_eq_filter (plan : SectionPlan) (r : Registry) :
    plan.fields r =
      r.fields.filter fun f => f.appliesTo plan.category && plan.selector.selects f := by
  simp only [fields, Registry.fieldsFor, List.filter_filter, Bool.and_comm]

/-- A field that is shown is declared. -/
theorem mem_fields_of_shown {plan : SectionPlan} {r : Registry} {f : Field}
    (shown : f ∈ plan.fields r) : f ∈ r.fields := by
  rw [fields_eq_filter] at shown
  exact List.mem_of_mem_filter shown

/-- No field is shown twice. -/
theorem nodup_fieldNames (plan : SectionPlan) (r : Registry) :
    ((plan.fields r).map (·.name)).Nodup := by
  rw [fields_eq_filter]
  exact r.distinct.sublist (List.Sublist.map _ List.filter_sublist)

end SectionPlan

end RunReport
