import RunReport.Proofs.Number.Digits
import RunReport.Proofs.Report.Standard
import RunReport.Proofs.Table.LatexLabels
import RunReport.Proofs.Table.LineLabels

/-!
# Labels of a standard report

The tables of a standard report show their labels in each format. In LaTeX these
can be read back whatever the tags of the runs are. In Org text and in plain text
a tag with a line break moves the rows down, so there the labels are read back
exactly when no tag has one.
-/

namespace RunReport

/-- The labels that are read from a table in a format. The width is that of the
column of labels, which plain text has no other mark for. -/
def OutputFormat.labels (width : Nat) : OutputFormat → String → List String
  | org => Table.orgLabels
  | latex => Table.latexLabels
  | text => Table.plainLabels width

/-- The labels of a legible table are read back from LaTeX, and from the other
formats exactly when no heading has a break. -/
theorem Table.Legible.labels_iff {t : Table} (h : t.Legible) (columns : t.headers ≠ [])
    (format : OutputFormat) :
    format.labels t.labelWidth (format.table t) = t.rows.map (·.label) ↔
      format = .latex ∨ ∀ header ∈ t.headers, '\n' ∉ header.toList := by
  cases format with
  | org => exact h.orgLabels_org_iff.trans (by simp)
  | text => exact h.plainLabels_plain_iff.trans (by simp)
  | latex =>
    refine iff_of_true (latexLabels_latex fun row given none => columns ?_) (.inl rfl)
    exact List.length_eq_zero_iff.1 ((h.complete row given).symm.trans (none ▸ rfl))

/-- A number in fixed notation is on one line. -/
theorem Binary64.notMem_fixed (x : Binary64) (places : Nat) : '\n' ∉ (x.fixed places).toList := by
  have numeral (n : Nat) : '\n' ∉ Digits.numeral n := fun given =>
    absurd (Digits.isDigit_of_mem_numeral given) (by decide)
  have digits (steps : Nat) : '\n' ∉ fixedDigits steps places := by
    simp [fixedDigits, Digits.padded, numeral, apply_ite (Membership.mem · '\n')]
  have signed (negative : Bool) {rest : List Char} (unbroken : '\n' ∉ rest) :
      '\n' ∉ withSign negative rest := by
    cases negative <;> simp [withSign, unbroken]
  unfold fixed
  rw [String.toList_ofList]
  cases x with
  | finite negative n _ => exact signed negative (digits _)
  | infinite negative => exact signed negative (by decide)
  | nan =>
    show '\n' ∉ "NaN".toList
    decide

/-- What shows a field of a run is on one line. -/
theorem Field.Shows.notMem {f : Field} {run : Run} {category : Category} {text : String}
    (shows : f.Shows run category text) : '\n' ∉ text.toList := by
  cases shows with
  | instant _ _ => exact Binary64.notMem_fixed _ _
  | distributional _ _ _ => exact Binary64.notMem_fixed _ _

namespace SectionPlan

/-- The labels of a section, in the order of declaration. -/
def labels (plan : SectionPlan) (r : Registry) : List String := (plan.fields r).map (·.label)

/-- Width of the column of a section's labels: the widest label or heading. -/
def labelWidth (plan : SectionPlan) (r : Registry) : Nat :=
  (plan.labels r).foldl (fun w label => max w label.length) plan.nameColumn.length

/-- A section whose names are on one line and whose labels are legible. -/
structure Legible (plan : SectionPlan) (r : Registry) : Prop where
  /-- The names of the section are on one line. -/
  names : ∀ name ∈ [plan.title, plan.dataRef, plan.nameColumn, plan.valueColumn],
    '\n' ∉ name.toList
  /-- The labels are legible. -/
  labels : ∀ label ∈ plan.labels r, IsLegible label

end SectionPlan

namespace Table.Presents

variable {t : Table} {r : Registry} {plan : SectionPlan} {runs : List Run}

/-- A table shows the labels of its section. -/
theorem map_label_rows (h : t.Presents r plan runs) : t.rows.map (·.label) = plan.labels r := by
  have each : List.Forall₂ (· = ·) (t.rows.map (·.label)) (plan.labels r) :=
    List.forall₂_map_left_iff.2 (List.forall₂_map_right_iff.2
      (h.rows.flip.imp fun _ _ shown => shown.1))
  rwa [List.forall₂_eq_eq_eq] at each

/-- The column of labels of a table is as wide as that of its section. -/
theorem labelWidth_eq (h : t.Presents r plan runs) : t.labelWidth = plan.labelWidth r := by
  rw [labelWidth, SectionPlan.labelWidth, ← h.map_label_rows, List.foldl_map, h.names.2.2]

/-- A heading has a break exactly when the tag of its run has one. -/
theorem unbroken_headers_iff (h : t.Presents r plan runs) (legible : plan.Legible r) :
    (∀ header ∈ t.headers, '\n' ∉ header.toList) ↔ ∀ run ∈ runs, '\n' ∉ run.tag.toList := by
  have name : '\n' ∉ plan.valueColumn.toList := legible.names _ (by simp)
  have opening : '\n' ∉ " (".toList := by decide
  have closing : '\n' ∉ ")".toList := by decide
  rw [h.headers, List.forall_mem_map]
  refine forall₂_congr fun run _ => ?_
  simp only [String.toList_append, List.mem_append, name, opening, closing, false_or, or_false]

/-- The table of a legible section is legible. -/
theorem legible (h : t.Presents r plan runs) (legible : plan.Legible r) : t.Legible where
  title := h.names.1 ▸ legible.names _ (by simp)
  dataRef := h.names.2.1 ▸ legible.names _ (by simp)
  nameColumn := h.names.2.2 ▸ legible.names _ (by simp)
  labels row given := legible.labels _ (h.map_label_rows ▸ List.mem_map_of_mem given)
  complete := h.complete
  values row given value hvalue := by
    obtain ⟨f, _, _, _, shown⟩ := Traversal.exists_of_mem_right h.rows given
    obtain ⟨run, _, shows⟩ := Traversal.exists_of_mem_right shown hvalue
    exact shows.notMem
  headers header given := by
    rw [h.headers] at given
    obtain ⟨run, _, rfl⟩ := List.mem_map.1 given
    exact ⟨_, ')', String.toList_append.trans (congrArg _ rfl), rfl⟩

end Table.Presents

/-- The labels of a section are read back from its table exactly when the format is
LaTeX or no tag has a break. -/
theorem Rendered.IsTableOf.labels_iff {format : OutputFormat} {r : Registry} {base : Run}
    {comparisons : List Run} {plan : SectionPlan} {text : String}
    (h : IsTableOf format r (base :: comparisons) plan text) (legible : plan.Legible r) :
    format.labels (plan.labelWidth r) text = plan.labels r ↔
      format = .latex ∨ ∀ run ∈ base :: comparisons, '\n' ∉ run.tag.toList := by
  obtain ⟨t, presents, rfl⟩ := h
  have columns : t.headers ≠ [] := by
    rw [presents.headers]
    exact List.cons_ne_nil _ _
  rw [← presents.labelWidth_eq, ← presents.map_label_rows, ← presents.unbroken_headers_iff legible]
  exact (presents.legible legible).labels_iff columns format

namespace ReportPlan

variable {base : Run} {comparisons : List Run}

/-- The standard sections are legible. -/
theorem legible_of_standard : ∀ part ∈ standard.layout, part.Legible standard.registry := by
  have each : ∀ part ∈ standard.layout,
      (∀ name ∈ [part.title, part.dataRef, part.nameColumn, part.valueColumn],
        '\n' ∉ name.toList) ∧
      ∀ label ∈ part.labels standard.registry, '|' ∉ label.toList ∧ '\n' ∉ label.toList ∧
        Text.trim label.toList = label.toList := by decide +kernel
  intro part listed
  obtain ⟨names, labels⟩ := each part listed
  exact ⟨names, fun label given =>
    ⟨(labels label given).1, (labels label given).2.1, (labels label given).2.2⟩⟩

/-- Each table of a standard report has its own file, and the labels that are read
from it are those of its section exactly when the format is LaTeX or no tag has a
break. -/
theorem labels_iff_of_covers {report : Rendered} {format : OutputFormat}
    (covers : report.Covers standard format base comparisons) :
    List.Forall₂ (fun part (file : TableFile) =>
      file.filename = part.targetFile ++ "." ++ format.extension ∧
        (format.labels (part.labelWidth standard.registry) file.text =
            part.labels standard.registry ↔
          format = .latex ∨ ∀ run ∈ base :: comparisons, '\n' ∉ run.tag.toList))
      standard.layout report.tables := by
  refine ((List.forall₂_and_left _ _).2 ⟨legible_of_standard, covers.tables⟩).imp ?_
  rintro part file ⟨legible, named, table⟩
  exact ⟨named, table.labels_iff legible⟩

/-- A standard report on any run and some runs to compare it with is generated if each of
its formats has room for each of the runs, and if there is no room for one the program
ends. For each of its formats and each of its sections, the labels that are read from the
table are those of the section in the order of their declaration, exactly when the format
is LaTeX or no tag of a run has a line break. -/
theorem standard_labels_iff (identity : Identity) (base : Run) {comparisons : List Run}
    (present : comparisons ≠ []) (formats : List OutputFormat) :
    ((∀ format ∈ formats, ∀ run ∈ base :: comparisons, standard.HasRoom format run) →
      ∃ reports, standard.generate identity base comparisons formats = .ok reports ∧
        List.Forall₂ (fun format (report : Rendered) =>
          List.Forall₂ (fun part (file : TableFile) =>
            file.filename = part.targetFile ++ "." ++ format.extension ∧
              (format.labels (part.labelWidth standard.registry) file.text =
                  part.labels standard.registry ↔
                format = .latex ∨ ∀ run ∈ base :: comparisons, '\n' ∉ run.tag.toList))
            standard.layout report.tables)
          formats reports) ∧
    ((∃ format ∈ formats, ∃ run ∈ base :: comparisons, ¬ standard.HasRoom format run) →
      standard.generate identity base comparisons formats = .error .crashed) := by
  refine ⟨fun room => ?_, standard_suitsEveryRun.generate_eq_crashed identity present⟩
  obtain ⟨reports, generated⟩ := standard_suitsEveryRun.exists_generate identity present room
  exact ⟨reports, generated,
    (covers_of_generate generated).imp fun _ _ covers => labels_iff_of_covers covers⟩

/-- Tags that look like parts of a table, but have no break, keep the labels of all
sections in all formats. -/
theorem standard_labels_odd_tags :
    [Run.level "\x7d\x7d & \\hline" 2] ≠ [] ∧ ∃ reports,
      standard.generate tagAuthor (Run.level "| a |" 1) [Run.level "\x7d\x7d & \\hline" 2]
        [.org, .latex, .text] = .ok reports ∧
      List.Forall₂ (fun format (report : Rendered) => List.Forall₂ (fun part (file : TableFile) =>
          format.labels (part.labelWidth standard.registry) file.text =
            part.labels standard.registry)
          standard.layout report.tables)
        [OutputFormat.org, .latex, .text] reports := by
  have present : [Run.level "\x7d\x7d & \\hline" 2] ≠ [] := List.cons_ne_nil _ _
  have unbroken : ∀ run ∈ [Run.level "| a |" 1, Run.level "\x7d\x7d & \\hline" 2],
      '\n' ∉ run.tag.toList := by decide
  obtain ⟨reports, generated, read⟩ := (standard_labels_iff tagAuthor (Run.level "| a |" 1) present
    [.org, .latex, .text]).1 (by decide +kernel)
  exact ⟨present, reports, generated, read.imp fun _ _ tables =>
    tables.imp fun _ _ table => table.2.2 (.inr unbroken)⟩

/-- A break in the tag of the base run makes the labels of every section unreadable
in Org text and in plain text. -/
theorem labels_lost_broken_tag :
    ∃ reports, standard.generate tagAuthor (Run.level "a\nb" 1) [Run.level "prev" 2]
        [.org, .text] = .ok reports ∧
      List.Forall₂ (fun format (report : Rendered) => List.Forall₂ (fun part (file : TableFile) =>
          format.labels (part.labelWidth standard.registry) file.text ≠
            part.labels standard.registry)
          standard.layout report.tables)
        [OutputFormat.org, .text] reports := by
  have broken : ¬ ∀ run ∈ [Run.level "a\nb" 1, Run.level "prev" 2], '\n' ∉ run.tag.toList := by
    decide
  have room : ∀ format ∈ [OutputFormat.org, .text],
      ∀ run ∈ [Run.level "a\nb" 1, Run.level "prev" 2], standard.HasRoom format run := by decide +kernel
  obtain ⟨reports, generated⟩ := standard_suitsEveryRun.exists_generate tagAuthor
    (List.cons_ne_nil (Run.level "prev" 2) []) room
  refine ⟨reports, generated, ?_⟩
  have lost {format : OutputFormat} {report : Rendered} (lines : format ≠ .latex)
      (covers : report.Covers standard format (Run.level "a\nb" 1) [Run.level "prev" 2]) :=
    (labels_iff_of_covers covers).imp fun _ _ table same => (table.2.1 same).elim lines broken
  obtain _ | ⟨org, _ | ⟨text, ⟨⟩⟩⟩ := covers_of_generate generated
  exact .cons (lost (by decide) org) (.cons (lost (by decide) text) .nil)

end ReportPlan

end RunReport
