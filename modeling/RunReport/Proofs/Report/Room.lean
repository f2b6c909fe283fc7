import RunReport.Proofs.Number.Decimal
import RunReport.Proofs.Number.Digits
import RunReport.Proofs.Report.Contents
import RunReport.Proofs.Table.OrgLayout
import RunReport.Proofs.Table.PlainLayout

/-!
# Room in the tables of a report

Org text and plain text fill the cells of their tables, and there is a greatest width
for that. The cells of a report show names from the plan, values, and what the runs say
of themselves. Values are numbers in fixed notation, which are always short enough, and
so are dates and the titles of workloads. There is room for a run exactly when the texts
that it is free to choose are short enough, its tag also in the heading of each section.
-/

namespace RunReport

namespace OutputFormat

variable {format : OutputFormat} {s t : String}

/-- The width that a text takes in a cell. Org text replaces bars; LaTeX fills no cells. -/
def cellSize : OutputFormat → String → ℕ
  | org => fun s => (Table.orgCell s).length
  | latex => fun _ => 0
  | text => String.length

/-- There is room for a text in a cell. -/
def Admits (format : OutputFormat) (s : String) : Prop := format.cellSize s ≤ fillLimit

instance (format : OutputFormat) (s : String) : Decidable (format.Admits s) :=
  inferInstanceAs (Decidable (format.cellSize s ≤ fillLimit))

/-- Texts that are joined take the room of both. -/
theorem cellSize_append : format.cellSize (s ++ t) = format.cellSize s + format.cellSize t := by
  cases format with
  | org =>
    simp only [cellSize, Table.orgCell, String.toList_append, List.flatMap_append,
      List.length_append]
  | latex => rfl
  | text => exact String.length_append s t

/-- A heading takes the room of its name, of its tag and of the brackets about the tag. -/
theorem cellSize_heading (format : OutputFormat) (name tag : String) :
    format.cellSize (name ++ " (" ++ tag ++ ")") =
      format.cellSize name + format.cellSize tag + format.cellSize " ()" := by
  have brackets : format.cellSize " ()" = format.cellSize " (" + format.cellSize ")" := by
    rw [← cellSize_append]
    rfl
  simp only [cellSize_append, brackets]
  omega

/-- A character takes the width of seven at most. -/
theorem cellSize_le : format.cellSize s ≤ 7 * s.length := by
  cases format with
  | org =>
    have each : ∀ cs : List Char, (cs.flatMap fun c =>
        if c = '|' then "\\vert\x7b\x7d".toList else [c]).length ≤ 7 * cs.length := by
      intro cs
      induction cs with
      | nil => exact Nat.le_refl _
      | cons c cs ih =>
        have one : (if c = '|' then "\\vert\x7b\x7d".toList else [c]).length ≤ 7 := by
          split
          · decide
          · exact Nat.le_add_left 1 6
        rw [List.flatMap_cons, List.length_append, List.length_cons]
        omega
    exact each s.toList
  | latex => exact Nat.zero_le _
  | text => exact Nat.le_mul_of_pos_left _ (by decide)

/-- There is room for a text of few characters. -/
theorem admits_of_length (short : 7 * s.length ≤ fillLimit) : format.Admits s :=
  cellSize_le.trans short

end OutputFormat

/-- A table without gaps can be filled exactly when there is room for each of its texts. -/
theorem Table.Complete.overruns_iff {t : Table} (h : t.Complete)
    (minima : ∀ row ∈ t.rows, row.width < 2 ^ 16) (format : OutputFormat) :
    format.overruns t = false ↔ ∀ s ∈ t.texts, format.Admits s := by
  cases format with
  | org => exact h.overruns_org_iff
  | latex => exact iff_of_true rfl fun s _ => Nat.zero_le _
  | text => exact h.overruns_text_iff minima

/-- A numeral with zeros in front is no longer than a bound on both. -/
theorem Digits.length_paddedText_le {width n k : ℕ} (narrow : width ≤ k) (positive : 0 < k)
    (fits : n < 10 ^ k) : (paddedText width n).length ≤ k := by
  have digits := length_numeral_le positive fits
  rw [paddedText, String.length_ofList, padded, List.length_append, List.length_replicate]
  omega

/-- Before the point a finite number has at most the digits of the greatest one. -/
theorem Binary64.fixedSteps_div_le {n k : ℕ} (below : n < limit) (large : 342 ≤ k) (places : ℕ) :
    fixedSteps n places / 10 ^ places ≤ 10 ^ k := by
  have power : 0 < 10 ^ places := Nat.pow_pos (by decide)
  have whole : n * 10 ^ places / unit < 10 ^ k * 10 ^ places := by
    refine (Nat.div_lt_iff_lt_mul (Nat.two_pow_pos unitExponent)).2 ?_
    rw [Nat.mul_right_comm]
    exact Nat.mul_lt_mul_of_pos_right (below.trans_le (Decimal.limit_le_ten_pow large)) power
  have steps : fixedSteps n places ≤ 10 ^ k * 10 ^ places :=
    (roundHalfEven_bounds _ _).2.trans whole
  exact Nat.div_le_of_le_mul (by rwa [Nat.mul_comm])

/-- A number in fixed notation is short. -/
theorem Binary64.length_fixed_le (x : Binary64) (places : ℕ) :
    (x.fixed places).length ≤ 345 + places := by
  have signed (negative : Bool) (rest : List Char) :
      (withSign negative rest).length ≤ 1 + rest.length := by
    cases negative <;> simp [withSign, Nat.add_comm]
  unfold fixed
  rw [String.length_ofList]
  cases x with
  | finite negative n valid =>
    obtain ⟨k, large, small⟩ : ∃ k, 342 ≤ k ∧ k ≤ 342 := ⟨342, Nat.le_refl _, Nat.le_refl _⟩
    have whole : (Digits.numeral (fixedSteps n places / 10 ^ places)).length ≤ k + 1 :=
      Digits.length_numeral_le (Nat.succ_pos k) ((fixedSteps_div_le valid.1 large places).trans_lt
        (Nat.pow_lt_pow_right (by decide) (Nat.lt_succ_self k)))
    have fraction : (if places = 0 then [] else '.' :: Digits.padded places
        (Digits.numeral (fixedSteps n places % 10 ^ places))).length ≤ 1 + places := by
      split
      · exact Nat.zero_le _
      · rename_i some
        rw [List.length_cons, Digits.length_padded (Nat.pos_of_ne_zero some)
          (Nat.mod_lt _ (Nat.pow_pos (by decide)))]
        omega
    refine (signed negative _).trans ?_
    rw [fixedDigits, List.length_append]
    omega
  | infinite negative =>
    refine (signed negative _).trans ?_
    have word : "inf".toList.length = 3 := rfl
    omega
  | nan => exact Nat.le_trans (by decide : "NaN".toList.length ≤ 345) (Nat.le_add_right _ _)

/-- What shows a field of a run is short. -/
theorem Field.Shows.length_le {f : Field} {run : Run} {category : Category} {text : String}
    (shows : f.Shows run category text) : text.length ≤ 345 + f.precision := by
  cases shows with
  | instant _ _ => exact Binary64.length_fixed_le _ _
  | distributional _ _ _ => exact Binary64.length_fixed_le _ _

/-- A date with its time is short. -/
theorem Timestamp.length_secondsText_le (t : Timestamp) : t.secondsText.length ≤ 23 := by
  obtain ⟨first, last, _, month, _, day⟩ := t.date_exists
  obtain ⟨hour, minute, second, _⟩ := t.time_exists
  have days : monthLength t.date.year t.date.month ≤ 31 := by
    unfold monthLength
    split
    · split <;> decide
    · split <;> decide
  have two {n : ℕ} (small : n < 100) : (Digits.paddedText 2 n).length ≤ 2 :=
    Digits.length_paddedText_le (Nat.le_refl 2) (by decide) small
  have year : (yearText t.date.year).length ≤ 7 := by
    have six {n : ℕ} (small : n < 10 ^ 6) : (Digits.paddedText 4 n).length ≤ 6 :=
      Digits.length_paddedText_le (by decide) (by decide) small
    simp only [firstYear, lastYear] at first last
    unfold yearText
    split
    · exact (six (by omega)).trans (by decide)
    · have sign : (if t.date.year < 0 then "-" else "+").length = 1 := by split <;> rfl
      rw [String.length_append, sign]
      have digits : (Digits.paddedText 4 t.date.year.natAbs).length ≤ 6 := six (by omega)
      omega
  have marks : "-".length = 1 ∧ "T".length = 1 ∧ ":".length = 1 ∧ "Z".length = 1 ∧
      "".length = 0 := ⟨rfl, rfl, rfl, rfl, rfl⟩
  unfold secondsText textWith
  simp only [String.length_append, marks]
  have months : (Digits.paddedText 2 t.date.month).length ≤ 2 := two (by omega)
  have days : (Digits.paddedText 2 t.date.day).length ≤ 2 := two (by omega)
  have hours : (Digits.paddedText 2 t.time.hour).length ≤ 2 := two (by omega)
  have minutes : (Digits.paddedText 2 t.time.minute).length ≤ 2 := two (by omega)
  have seconds : (Digits.paddedText 2 t.time.second).length ≤ 2 := two (by omega)
  omega

/-- The texts that a run is free to choose and that the table of the runs shows. -/
def Metadata.names (m : Metadata) : List String :=
  [m.tag, m.batch, m.profile, m.era, m.manifest.name, m.manifest.branch, m.manifest.version]

/-- What the table of the runs shows of a run. -/
def RunIdentity.cells (r : RunIdentity) : List String :=
  [r.tag, r.name, r.version, r.branch, r.shortRevision, r.workloadTitle, r.profile, r.era,
    r.batch, r.timestamp]

/-- What the table of the runs shows whatever the runs. -/
def Context.manifestLabels : List String :=
  ["Run", "Component", "Version", "Branch", "Revision", "Workload", "Profile", "Era", "Batch",
    "Date"]

/-- The texts of the table of the runs are its labels and what it shows of each run. -/
theorem Context.forall_mem_texts_manifest {c : Context} {P : String → Prop} :
    (∀ s ∈ c.manifest.texts, P s) ↔ (∀ s ∈ manifestLabels, P s) ∧
      ∀ r ∈ c.base :: c.runs, ∀ s ∈ r.cells, P s := by
  simp only [Table.texts, manifest, manifestLabels, RunIdentity.cells]
  generalize c.base :: c.runs = runs
  simp only [List.forall_mem_append, List.forall_mem_cons, List.forall_mem_map,
    List.flatMap_cons, List.flatMap_nil, List.not_mem_nil, false_imp_iff, implies_true, and_true,
    forall_and]
  tauto

/-- There is room for what the table of the runs shows of a run exactly when there is room
for the texts that the run is free to choose. -/
theorem RunIdentity.admits_cells_iff {format : OutputFormat} (run : Run) :
    (∀ s ∈ (ofRun run).cells, format.Admits s) ↔
      ∀ s ∈ run.metadata.names, format.Admits s := by
  have revision : format.Admits (ofRun run).shortRevision := by
    refine OutputFormat.admits_of_length ?_
    rw [ofRun, Manifest.shortRevision, String.length_ofList, List.length_take]
    exact (Nat.mul_le_mul_left 7 (Nat.min_le_left 7 _)).trans (by decide)
  have title : format.Admits (ofRun run).workloadTitle := by
    have short (w : Workload) : 7 * w.title.length ≤ fillLimit := by
      cases w <;> decide
    exact OutputFormat.admits_of_length (short run.metadata.workload)
  have date : format.Admits (ofRun run).timestamp :=
    OutputFormat.admits_of_length
      ((Nat.mul_le_mul_left 7 run.metadata.timestamp.length_secondsText_le).trans (by decide))
  simp only [cells, Metadata.names, List.forall_mem_cons, revision, title, date, true_and,
    List.not_mem_nil, false_imp_iff, implies_true, and_true]
  constructor
  · rintro ⟨tag, name, version, branch, profile, era, batch⟩
    exact ⟨tag, batch, profile, era, name, branch, version⟩
  · rintro ⟨tag, batch, profile, era, name, branch, version⟩
    exact ⟨tag, name, version, branch, profile, era, batch⟩

/-- The table of the runs can be filled exactly when there is room for what the runs say
of themselves. -/
theorem Context.overruns_manifest_iff {c : Context} {runs : List Run}
    (given : c.base :: c.runs = runs.map RunIdentity.ofRun) (format : OutputFormat) :
    format.overruns c.manifest = false ↔
      ∀ run ∈ runs, ∀ s ∈ run.metadata.names, format.Admits s := by
  have complete : c.manifest.Complete := by
    simp [Table.Complete, manifest]
  have minima : ∀ row ∈ c.manifest.rows, row.width < 2 ^ 16 := by
    simp [manifest]
  have labels : ∀ s ∈ manifestLabels, format.Admits s := fun s listed =>
    OutputFormat.admits_of_length (by revert s; decide)
  rw [complete.overruns_iff minima, forall_mem_texts_manifest, and_iff_right labels, given,
    List.forall_mem_map]
  exact forall₂_congr fun run _ => RunIdentity.admits_cells_iff run

/-- A section whose own names have room in every format, and whose numbers are in range. -/
structure SectionPlan.Modest (plan : SectionPlan) (r : Registry) : Prop where
  /-- The heading of the labels and the labels are short. -/
  names : ∀ s ∈ plan.nameColumn :: (plan.fields r).map (·.label), 7 * s.length ≤ fillLimit
  /-- Decimal places are given in a byte and widths in two. -/
  fits : ∀ f ∈ plan.fields r, f.precision < 2 ^ 8 ∧ f.width < 2 ^ 16

instance (plan : SectionPlan) (r : Registry) : Decidable (plan.Modest r) :=
  decidable_of_iff ((∀ s ∈ plan.nameColumn :: (plan.fields r).map Field.label,
      7 * s.length ≤ fillLimit) ∧ ∀ f ∈ plan.fields r, f.precision < 2 ^ 8 ∧ f.width < 2 ^ 16)
    ⟨fun modest => ⟨modest.1, modest.2⟩, fun modest => ⟨modest.names, modest.fits⟩⟩

namespace Table.Presents

variable {t : Table} {r : Registry} {plan : SectionPlan} {runs : List Run}

/-- A table that presents runs has a value under each heading. -/
theorem complete (h : t.Presents r plan runs) : t.Complete := by
  intro row given
  obtain ⟨f, _, _, _, shown⟩ := Traversal.exists_of_mem_right h.rows given
  rw [h.headers, List.length_map, shown.length_eq]

/-- The table of a modest section can be filled exactly when there is room for the headings. -/
theorem overruns_iff (h : t.Presents r plan runs) (modest : plan.Modest r)
    (format : OutputFormat) : format.overruns t = false ↔
      ∀ run ∈ runs, format.Admits (plan.valueColumn ++ " (" ++ run.tag ++ ")") := by
  obtain ⟨nameColumn, labels⟩ := List.forall_mem_cons.1 modest.names
  have minima : ∀ row ∈ t.rows, row.width < 2 ^ 16 := by
    intro row given
    obtain ⟨f, declared, _, width, _⟩ := Traversal.exists_of_mem_right h.rows given
    exact width ▸ (modest.fits f declared).2
  have rows : ∀ s ∈ t.rows.flatMap fun row => row.label :: row.values, format.Admits s := by
    intro s given
    obtain ⟨row, listed, given⟩ := List.mem_flatMap.1 given
    obtain ⟨f, declared, label, _, shown⟩ := Traversal.exists_of_mem_right h.rows listed
    rcases List.mem_cons.1 given with rfl | value
    · exact label ▸ OutputFormat.admits_of_length (labels _ (List.mem_map_of_mem declared))
    · obtain ⟨run, _, shows⟩ := Traversal.exists_of_mem_right shown value
      have short := shows.length_le
      have places := (modest.fits f declared).1
      exact OutputFormat.admits_of_length (by rw [fillLimit]; omega)
  have heading : format.Admits t.nameColumn :=
    h.names.2.2 ▸ OutputFormat.admits_of_length nameColumn
  rw [h.complete.overruns_iff minima, texts, List.forall_mem_append, List.forall_mem_cons,
    and_iff_left rows, and_iff_right heading, h.headers, List.forall_mem_map]

end Table.Presents

namespace ReportPlan

/-- A format has room for what a run says of itself, and for its tag in each heading. -/
structure HasRoom (plan : ReportPlan) (format : OutputFormat) (run : Run) : Prop where
  /-- What the run says of itself. -/
  names : ∀ s ∈ run.metadata.names, format.Admits s
  /-- The headings of the sections. -/
  headings : ∀ part ∈ plan.layout,
    format.Admits (part.valueColumn ++ " (" ++ run.tag ++ ")")

instance (plan : ReportPlan) (format : OutputFormat) (run : Run) :
    Decidable (plan.HasRoom format run) :=
  decidable_of_iff ((∀ s ∈ run.metadata.names, format.Admits s) ∧ ∀ part ∈ plan.layout,
      format.Admits (part.valueColumn ++ " (" ++ run.tag ++ ")"))
    ⟨fun room => ⟨room.1, room.2⟩, fun room => ⟨room.names, room.headings⟩⟩

variable {plan : ReportPlan} {identity : Identity} {base : Run} {comparisons : List Run}
  {c : Context} {sets : List SectionSet} {format : OutputFormat}

/-- The tables of modest sections can be filled exactly when there is room for each run. -/
theorem Prepared.overruns_iff_hasRoom (h : Prepared plan identity base comparisons c sets)
    (modest : ∀ part ∈ plan.layout, part.Modest plan.registry) :
    plan.Overruns identity base comparisons format ↔
      ¬ ∀ run ∈ base :: comparisons, plan.HasRoom format run := by
  obtain ⟨entries, each⟩ := h.exists_entries
  obtain ⟨first, others, _⟩ := Context.parts_of_assemble h.assembled
  have given : c.base :: c.runs = (base :: comparisons).map RunIdentity.ofRun := by
    rw [first, others, List.map_cons]
  have sections : (∀ entry ∈ entries, format.overruns entry.2 = false) ↔
      ∀ part ∈ plan.layout, ∀ run ∈ base :: comparisons,
        format.Admits (part.valueColumn ++ " (" ++ run.tag ++ ")") := by
    have table : List.Forall₂ (fun part (entry : SectionPlan × Table) =>
        format.overruns entry.2 = false ↔ ∀ run ∈ base :: comparisons,
          format.Admits (part.valueColumn ++ " (" ++ run.tag ++ ")")) plan.layout entries :=
      ((List.forall₂_and_left _ _).2 ⟨modest, h.presents each⟩).imp fun part entry held =>
        held.2.2.overruns_iff held.1 format
    constructor
    · intro filled part listed
      obtain ⟨entry, there, iff⟩ := Traversal.exists_of_mem_left table listed
      exact iff.1 (filled entry there)
    · intro room entry there
      obtain ⟨part, listed, iff⟩ := Traversal.exists_of_mem_right table there
      exact iff.2 (room part listed)
  rw [h.overruns_iff each, Rendered.Fillable, List.forall_mem_cons, List.forall_mem_map, sections,
    Context.overruns_manifest_iff given format, not_iff_not]
  constructor
  · rintro ⟨names, headings⟩ run listed
    exact ⟨names run listed, fun part drawn => headings part drawn run listed⟩
  · intro room
    exact ⟨fun run listed => (room run listed).names,
      fun part drawn run listed => (room run listed).headings part drawn⟩

end ReportPlan

end RunReport
