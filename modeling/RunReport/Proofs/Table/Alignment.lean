import RunReport.Proofs.Table.Transposition

/-!
# Sections that line up

The sections of several runs are turned into a table exactly when there are some and
all of them show the same field names in the same order. Then no row that the table
reads is missing from a section: each cell is the value in the same row of the section
of its run. Otherwise the first section that departs from the first one is reported, by
the name in which it departs, or by the number of its rows if one list of names goes on
where the other one ends.
-/

namespace RunReport

namespace Table

/-- What is said of names that are not the expected ones. -/
inductive Departs (expected found : List String) : String → Prop where
  /-- The first name that is not the expected one; those before it are the same. -/
  | name {common later others : List String} {wanted given : String}
    (expected_eq : expected = common ++ wanted :: later)
    (found_eq : found = common ++ given :: others) (differs : wanted ≠ given) :
    Departs expected found given
  /-- The number of the names, if one of the lists begins with all of the other. -/
  | count (begins : expected <+: found ∨ found <+: expected) (differs : found ≠ expected) :
    Departs expected found ("<" ++ Digits.text found.length ++ " rows>")

variable {expected found : List String} {name : String}

/-- A stranger is the first name that is not the expected one. -/
theorem firstStranger_eq_some_iff :
    firstStranger expected found = some name ↔ ∃ common wanted later others,
      expected = common ++ wanted :: later ∧ found = common ++ name :: others ∧ wanted ≠ name := by
  induction expected generalizing found with
  | nil => simp [firstStranger]
  | cons wanted later ih =>
    cases found with
    | nil => simp [firstStranger]
    | cons given others =>
      rw [firstStranger]
      by_cases same : wanted = given
      · subst same
        rw [if_pos rfl, ih]
        constructor
        · rintro ⟨common, wanted', later', others', rfl, rfl, differs⟩
          exact ⟨wanted :: common, wanted', later', others', rfl, rfl, differs⟩
        · rintro ⟨common, wanted', later', others', left, right, differs⟩
          cases common with
          | nil =>
            obtain ⟨rfl, _⟩ := List.cons.inj left
            exact absurd (List.cons.inj right).1 differs
          | cons first common =>
            exact ⟨common, wanted', later', others', (List.cons.inj left).2,
              (List.cons.inj right).2, differs⟩
      · rw [if_neg same, Option.some.injEq]
        constructor
        · rintro rfl
          exact ⟨[], wanted, later, others, rfl, rfl, same⟩
        · rintro ⟨common, wanted', later', others', left, right, _⟩
          cases common with
          | nil => exact (List.cons.inj right).1
          | cons first common =>
            exact absurd ((List.cons.inj left).1.trans (List.cons.inj right).1.symm) same

/-- Names that are said to depart are not the expected ones. -/
theorem Departs.ne (departs : Departs expected found name) : found ≠ expected := by
  cases departs with
  | name expected_eq found_eq differs =>
    rintro rfl
    have same := List.append_cancel_left (expected_eq.symm.trans found_eq)
    exact differs (List.cons.inj same).1
  | count _ differs => exact differs

/-- What is said of a section that departs is what its names show. -/
theorem departure?_eq_some_iff {s : Section} :
    departure? expected s = some name ↔ Departs expected s.fieldNames name := by
  have size : s.fieldNames.length = s.rows.length := List.length_map _
  constructor
  · intro said
    have differs : s.fieldNames ≠ expected := fun same => by
      rw [departure?_eq_none_iff.2 same] at said
      cases said
    unfold departure? at said
    split at said
    · rename_i given stranger
      obtain ⟨_, _, _, _, left, right, other⟩ := firstStranger_eq_some_iff.1 stranger
      exact Option.some.inj said ▸ .name left right other
    · rename_i stranger
      split at said
      · cases said
      · rw [← Option.some.inj said, ← size]
        exact .count (firstStranger_eq_none_iff.1 stranger) differs
  · intro departs
    unfold departure?
    cases departs with
    | name left right other =>
      rw [firstStranger_eq_some_iff.2 ⟨_, _, _, _, left, right, other⟩]
    | count begins differs =>
      have longer : s.rows.length ≠ expected.length := by
        intro length
        rcases begins with begins | begins
        · exact differs (begins.eq_of_length (length.symm.trans size.symm)).symm
        · exact differs (begins.eq_of_length (size.trans length))
      rw [firstStranger_eq_none_iff.2 begins, if_neg longer, size]

/-- The first section that departs is reported by its tag, with what is said of its names. -/
theorem firstDeparture_eq_some_iff {dataRef : String} {columns : List RunSection}
    {failure : Failure} :
    firstDeparture dataRef expected columns = some failure ↔ ∃ before column after departure,
      columns = before ++ column :: after ∧
        (∀ other ∈ before, other.content.fieldNames = expected) ∧
        Departs expected column.content.fieldNames departure ∧
        failure = .unknownField departure
          (some ("run '" ++ column.tag ++ "' of section '" ++ dataRef ++ "'")) := by
  induction columns with
  | nil => simp [firstDeparture]
  | cons first rest ih =>
    unfold firstDeparture
    cases departs : departure? expected first.content with
    | some departure =>
      have said := departure?_eq_some_iff.1 departs
      rw [Option.some.injEq]
      constructor
      · rintro rfl
        exact ⟨[], first, rest, departure, rfl, by simp, said, rfl⟩
      · rintro ⟨before, column, after, departure', split, aligned, said', rfl⟩
        cases before with
        | nil =>
          obtain ⟨rfl, rfl⟩ := List.cons.inj split
          rw [Option.some.inj (departs.symm.trans (departure?_eq_some_iff.2 said'))]
        | cons head before =>
          obtain ⟨rfl, _⟩ := List.cons.inj split
          exact absurd (aligned first List.mem_cons_self) said.ne
    | none =>
      have same := departure?_eq_none_iff.1 departs
      refine ih.trans ⟨?_, ?_⟩
      · rintro ⟨before, column, after, departure, rfl, aligned, said, rfl⟩
        exact ⟨first :: before, column, after, departure, rfl,
          List.forall_mem_cons.2 ⟨same, aligned⟩, said, rfl⟩
      · rintro ⟨before, column, after, departure, split, aligned, said, rfl⟩
        cases before with
        | nil =>
          obtain ⟨rfl, rfl⟩ := List.cons.inj split
          exact absurd same said.ne
        | cons head before =>
          obtain ⟨rfl, rfl⟩ := List.cons.inj split
          exact ⟨before, column, after, departure, rfl, (List.forall_mem_cons.1 aligned).2, said, rfl⟩

end Table

namespace SectionSet

/-- All sections show the same field names in the same order. -/
def Aligned (set : SectionSet) : Prop :=
  ∀ one ∈ set.columns, ∀ other ∈ set.columns, other.content.fieldNames = one.content.fieldNames

/-- The failure names the first section that departs from the first one. -/
def FirstMisfit (set : SectionSet) (failure : Failure) : Prop :=
  ∃ first before column after departure, set.columns = first :: (before ++ column :: after) ∧
    (∀ other ∈ before, other.content.fieldNames = first.content.fieldNames) ∧
    Table.Departs first.content.fieldNames column.content.fieldNames departure ∧
    failure = .unknownField departure
      (some ("run '" ++ column.tag ++ "' of section '" ++ set.plan.dataRef ++ "'"))

/-- The table has the rows of the sections, and their columns under the tags of the runs. -/
structure TurnsInto (set : SectionSet) (t : Table) : Prop where
  /-- Title, key and heading of the labels are those of the plan. -/
  names : t.title = set.plan.title ∧ t.dataRef = set.plan.dataRef ∧
    t.nameColumn = set.plan.nameColumn
  /-- One heading for each section in turn. -/
  headers : t.headers =
    set.columns.map fun column => set.plan.valueColumn ++ " (" ++ column.tag ++ ")"
  /-- Labels and widths are those of the first section. -/
  labels : ∀ first others, set.columns = first :: others →
    t.rows.map (fun row => (row.label, row.width)) =
      first.content.rows.map fun row => (row.label, row.width)
  /-- Each section has as many rows as the table. -/
  height : ∀ column ∈ set.columns, column.content.rows.length = t.rows.length
  /-- Each row has one value for each heading. -/
  full : ∀ row ∈ t.rows, row.values.length = t.headers.length
  /-- The value in a row and a column is that in the same row of the section. -/
  cells : ∀ (i j : Nat) (row : TableRow) (column : RunSection), t.rows[i]? = some row →
    set.columns[j]? = some column → ∃ source, column.content.rows[i]? = some source ∧
      row.values[j]? = some source.value

/-- Sections are aligned when all show the names of the first one. -/
theorem aligned_cons_iff {plan : SectionPlan} {first : RunSection} {others : List RunSection} :
    Aligned ⟨plan, first :: others⟩ ↔
      ∀ column ∈ others, column.content.fieldNames = first.content.fieldNames := by
  constructor
  · intro aligned column later
    exact aligned first List.mem_cons_self column (List.mem_cons_of_mem _ later)
  · intro same
    have all : ∀ column ∈ first :: others, column.content.fieldNames = first.content.fieldNames :=
      List.forall_mem_cons.2 ⟨rfl, same⟩
    intro one hone other hother
    exact (all other hother).trans (all one hone).symm

/-- A section has as many rows as any other one that is aligned with it. -/
theorem Aligned.length_rows {set : SectionSet} (aligned : set.Aligned) {one other : RunSection}
    (hone : one ∈ set.columns) (hother : other ∈ set.columns) :
    other.content.rows.length = one.content.rows.length := by
  have sizes := congrArg List.length (aligned one hone other hother)
  simpa only [Section.fieldNames, List.length_map] using sizes

/-- A row of the table is a row of the first section with the values of all sections. -/
theorem exists_of_getElem?_rows {plan : SectionPlan} {first : RunSection}
    {columns : List RunSection} {i : Nat} {row : TableRow}
    (given : (Table.ofAligned plan first columns).rows[i]? = some row) :
    ∃ source, first.content.rows[i]? = some source ∧ row =
      ⟨source.label, columns.map fun column => column.content.valueAt i, source.width⟩ := by
  rw [Table.ofAligned, List.getElem?_mapIdx] at given
  obtain ⟨source, inFirst, rfl⟩ := Option.map_eq_some_iff.1 given
  exact ⟨source, inFirst, rfl⟩

/-- Aligned sections are turned into their table. -/
theorem Aligned.turnsInto {plan : SectionPlan} {first : RunSection} {others : List RunSection}
    (aligned : Aligned ⟨plan, first :: others⟩) :
    TurnsInto ⟨plan, first :: others⟩ (Table.ofAligned plan first (first :: others)) := by
  have height : (Table.ofAligned plan first (first :: others)).rows.length =
      first.content.rows.length := List.length_mapIdx
  refine {
    names := ⟨rfl, rfl, rfl⟩
    headers := rfl
    labels := ?_
    height := fun column given =>
      (aligned.length_rows List.mem_cons_self given).trans height.symm
    full := ?_
    cells := ?_ }
  · intro head later same
    obtain ⟨rfl, _⟩ := List.cons.inj same
    refine List.ext_getElem? fun i => ?_
    rw [Table.ofAligned, List.getElem?_map, List.getElem?_mapIdx, Option.map_map, List.getElem?_map]
    rfl
  · intro row given
    obtain ⟨i, found⟩ := List.mem_iff_getElem?.1 given
    obtain ⟨source, _, rfl⟩ := exists_of_getElem?_rows found
    simp only [Table.ofAligned, List.length_map]
  · intro i j row column found placed
    obtain ⟨head, inFirst, rfl⟩ := exists_of_getElem?_rows found
    have inside : i < column.content.rows.length := by
      rw [aligned.length_rows List.mem_cons_self (List.mem_of_getElem? placed)]
      exact (List.getElem?_eq_some_iff.1 inFirst).1
    refine ⟨column.content.rows[i], List.getElem?_eq_getElem inside, ?_⟩
    rw [List.getElem?_map, placed]
    simp only [Section.valueAt, List.getElem?_eq_getElem inside, Option.map_some]

/-- The first misfit among sections is the first of the others that departs. -/
theorem firstMisfit_cons_iff {plan : SectionPlan} {first : RunSection} {others : List RunSection}
    {failure : Failure} :
    FirstMisfit ⟨plan, first :: others⟩ failure ↔
      Table.firstDeparture plan.dataRef first.content.fieldNames others = some failure := by
  rw [Table.firstDeparture_eq_some_iff]
  constructor
  · rintro ⟨head, before, column, after, departure, split, rest⟩
    obtain ⟨rfl, later⟩ := List.cons.inj split
    exact ⟨before, column, after, departure, later, rest⟩
  · rintro ⟨before, column, after, departure, split, rest⟩
    exact ⟨first, before, column, after, departure, congrArg (first :: ·) split, rest⟩

end SectionSet

/-- Sections are turned into a table exactly when there are some and all of them show the
same field names in the same order. The table then has their rows: the value in row `i`
and column `j` is that in row `i` of the section of run `j`, which has such a row.
Without sections the failure says so, and otherwise it names the first section that
departs from the first one. -/
theorem Table.transpose_outcome (set : SectionSet) :
    ((∃ t, transpose set = .ok t) ↔ set.columns ≠ [] ∧ set.Aligned) ∧
    (∀ t, transpose set = .ok t → set.TurnsInto t) ∧
    ∀ failure, transpose set = .error failure ↔
      set.columns = [] ∧
          failure = .emptyRunSet ("section '" ++ set.plan.dataRef ++ "' has no runs") ∨
        set.FirstMisfit failure := by
  obtain ⟨plan, columns⟩ := set
  cases columns with
  | nil => simp [transpose, SectionSet.FirstMisfit, eq_comm]
  | cons first others =>
    have present : first :: others ≠ [] := List.cons_ne_nil _ _
    simp only [SectionSet.firstMisfit_cons_iff, SectionSet.aligned_cons_iff, present, ne_eq,
      not_false_eq_true, false_and, false_or, true_and]
    have aligned : firstDeparture plan.dataRef first.content.fieldNames others = none ↔ _ :=
      firstDeparture_eq_none_iff
    rw [← aligned]
    cases departs : firstDeparture plan.dataRef first.content.fieldNames others with
    | none =>
      have same := aligned.1 departs
      have turned : transpose ⟨plan, first :: others⟩ = _ := transpose_of_aligned same
      refine ⟨iff_of_true ⟨_, turned⟩ rfl, fun t given => ?_, fun failure => ?_⟩
      · obtain rfl := Except.ok.inj (turned.symm.trans given)
        exact (SectionSet.aligned_cons_iff.2 same).turnsInto
      · simp [turned]
    | some failure =>
      have refused : transpose ⟨plan, first :: others⟩ = .error failure := by
        simp only [transpose, departs]
      simp [refused]

end RunReport
