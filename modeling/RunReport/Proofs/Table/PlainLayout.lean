import Mathlib.Algebra.BigOperators.Group.List.Lemmas
import Mathlib.Algebra.Order.Ring.Nat
import Mathlib.Order.Bounds.Defs
import Mathlib.Order.MinMax
import RunReport.Proofs.Table.Filling
import RunReport.Proofs.Table.LineLabels

/-!
# The layout of plain tables

The columns of a table in plain text are as narrow as its texts and the least widths of
its rows allow. Before its trailing blanks are cut, each line is as long as all columns
together, the label stands at the left of the first one, and each value ends where its
column ends, two spaces or more behind what stands before it. All of this holds of every
table whose rows have a value under each heading and whose texts can be filled to the
widths of the columns; of other such tables nothing is written.
-/

namespace RunReport

namespace Table

open Text

/-- Where a column of values begins: behind the labels and the columns before it, each of
them with two spaces in front. -/
def columnStart (labels : ℕ) (widths : List ℕ) (j : ℕ) : ℕ :=
  labels + ((widths.take j).map (2 + ·)).sum

/-- A line before its trailing blanks are cut. -/
structure PlainPadded (labels : ℕ) (widths : List ℕ) (label : String) (values : List String)
    (padded : List Char) : Prop where
  /-- It is as long as all columns with two spaces between them. -/
  length_eq : padded.length = labels + (widths.map (2 + ·)).sum
  /-- The label stands at the left of the first column. -/
  label_at : ∃ spaces, padded.take labels = label.toList ++ List.replicate spaces ' '
  /-- Each value stands at the right of its column, behind two spaces at least. -/
  value_at : ∀ j value, values[j]? = some value → ∃ spaces, 2 ≤ spaces ∧
    (padded.take (columnStart labels widths (j + 1))).drop (columnStart labels widths j) =
      List.replicate spaces ' ' ++ value.toList

/-- A line is what is left of another one when the blanks at its end are cut. -/
structure TrimmedFrom (padded line : List Char) : Prop where
  /-- Nothing but blanks is cut. -/
  cut : ∃ blanks, (∀ c ∈ blanks, isBlank c = true) ∧ line ++ blanks = padded
  /-- No blank is left at the end. -/
  ending : ∀ c, line.getLast? = some c → isBlank c = false

/-- The lines of a table in plain text, with the widths of its columns. -/
structure PlainLayout (t : Table) (text : String) (labels : ℕ) (widths : List ℕ)
    (headings : List Char) (body : List (List Char)) : Prop where
  /-- The text is the title, an underline of its length and then these lines. -/
  lines : text.toList = t.title.toList ++ ['\n'] ++ List.replicate t.title.length '=' ++ ['\n'] ++
    headings ++ ['\n'] ++ (body.map fun line => line ++ ['\n']).flatten
  /-- The column of labels is as wide as the widest of them or their heading. -/
  labels_width :
    IsGreatest {n | n = t.nameColumn.length ∨ ∃ row ∈ t.rows, n = row.label.length} labels
  /-- There is a column of values for each heading. -/
  length_widths : widths.length = t.headers.length
  /-- It is as narrow as its heading, its values and all rows allow. -/
  values_width : ∀ (j : ℕ) (header : String) (w : ℕ),
    t.headers[j]? = some header → widths[j]? = some w →
      IsLeast {n | header.length ≤ n ∧ ∀ row ∈ t.rows,
        (∀ value : String, row.values[j]? = some value → value.length ≤ n) ∧ row.width ≤ n} w
  /-- The headings stand in their columns. -/
  headings_line : ∃ padded, PlainPadded labels widths t.nameColumn t.headers padded ∧
    TrimmedFrom padded headings
  /-- So does each row. -/
  body_lines : List.Forall₂ (fun row line => ∃ padded,
    PlainPadded labels widths row.label row.values padded ∧ TrimmedFrom padded line) t.rows body

section Widths

variable {t : Table} {limit : ℕ}

/-- A running maximum is its start or one of the numbers. -/
theorem foldl_max_mem {α : Type} {xs : List α} (f : α → ℕ) (start : ℕ) :
    xs.foldl (fun w x => max w (f x)) start = start ∨
      ∃ x ∈ xs, xs.foldl (fun w x => max w (f x)) start = f x := by
  induction xs generalizing start with
  | nil => exact .inl rfl
  | cons x xs ih =>
    rw [List.foldl_cons]
    rcases ih (max start (f x)) with same | ⟨y, given, eq⟩
    · rcases max_choice start (f x) with first | second
      · exact .inl (same.trans first)
      · exact .inr ⟨x, List.mem_cons_self, same.trans second⟩
    · exact .inr ⟨y, List.mem_cons_of_mem _ given, eq⟩

/-- The column of labels is as wide as the widest of them or their heading. -/
theorem labelWidth_isGreatest (t : Table) :
    IsGreatest {n | n = t.nameColumn.length ∨ ∃ row ∈ t.rows, n = row.label.length}
      t.labelWidth := by
  obtain ⟨heading, labels⟩ := labelWidth_le_iff.1 (Nat.le_refl t.labelWidth)
  refine ⟨foldl_max_mem _ _, ?_⟩
  rintro n (rfl | ⟨row, given, rfl⟩)
  · exact heading
  · exact labels row given

/-- A column of values is within a limit exactly when all that stands in it is and every row
allows it. -/
theorem valueWidth_le_iff {i : ℕ} {header : String} :
    t.valueWidth i header ≤ limit ↔ header.length ≤ limit ∧ ∀ row ∈ t.rows,
      (∀ value : String, row.values[i]? = some value → value.length ≤ limit) ∧
        row.width ≤ limit := by
  refine (foldl_max_le_iff _).trans (and_congr_right fun _ => forall₂_congr fun row _ => ?_)
  rw [Nat.max_le]
  refine and_congr_left fun _ => ?_
  cases row.values[i]? <;> simp

/-- There is a column of values for each heading. -/
theorem length_valueWidths (t : Table) : t.valueWidths.length = t.headers.length := by
  rw [valueWidths, List.length_mapIdx]

/-- A column of values is as narrow as its heading, its values and all rows allow. -/
theorem valueWidth_isLeast {j w : ℕ} {header : String} (hheader : t.headers[j]? = some header)
    (hw : t.valueWidths[j]? = some w) :
    IsLeast {n | header.length ≤ n ∧ ∀ row ∈ t.rows,
      (∀ value : String, row.values[j]? = some value → value.length ≤ n) ∧ row.width ≤ n} w := by
  rw [valueWidths, List.getElem?_mapIdx, hheader] at hw
  obtain rfl := Option.some.inj hw
  exact ⟨valueWidth_le_iff.1 (Nat.le_refl _), fun _ => valueWidth_le_iff.2⟩

/-- The columns of values are within a limit exactly when the headings and values are and
every row allows it. -/
theorem Complete.valueWidths_le_iff (h : t.Complete) (minima : ∀ row ∈ t.rows, row.width ≤ limit) :
    (∀ w ∈ t.valueWidths, w ≤ limit) ↔ (∀ header ∈ t.headers, header.length ≤ limit) ∧
      ∀ row ∈ t.rows, ∀ value ∈ row.values, value.length ≤ limit := by
  have columns : (∀ w ∈ t.valueWidths, w ≤ limit) ↔
      ∀ (i : ℕ) (within : i < t.headers.length), t.valueWidth i t.headers[i] ≤ limit := by
    simp only [valueWidths, List.mem_mapIdx, forall_exists_index]
    exact ⟨fun all i within => all _ i within rfl, fun all _ i within eq => eq ▸ all i within⟩
  rw [columns]
  constructor
  · intro narrow
    constructor
    · intro header given
      obtain ⟨i, within, rfl⟩ := List.getElem_of_mem given
      exact (valueWidth_le_iff.1 (narrow i within)).1
    · intro row given value hvalue
      obtain ⟨i, within, rfl⟩ := List.getElem_of_mem hvalue
      have column := valueWidth_le_iff.1 (narrow i (h row given ▸ within))
      exact (column.2 row given).1 _ (List.getElem?_eq_getElem within)
  · rintro ⟨headers, values⟩ i within
    refine valueWidth_le_iff.2 ⟨headers _ (List.getElem_mem within), fun row given => ?_⟩
    exact ⟨fun value hvalue => values row given value (List.mem_of_getElem? hvalue),
      minima row given⟩

/-- The headings and the values of each row fit the columns. -/
theorem Complete.fits_plain (h : t.Complete) :
    Fits (t.headers.map String.toList) t.valueWidths ∧
      ∀ row ∈ t.rows, Fits (row.values.map String.toList) t.valueWidths := by
  have least (i : ℕ) (within : i < t.valueWidths.length) :=
    (valueWidth_isLeast (List.getElem?_eq_getElem (t.length_valueWidths ▸ within))
      (List.getElem?_eq_getElem within)).1
  constructor
  · refine List.forall₂_map_left_iff.2 (List.forall₂_iff_get.2 ⟨t.length_valueWidths.symm, ?_⟩)
    intro i _ within
    rw [String.length_toList]
    exact (least i within).1
  · intro row given
    refine List.forall₂_map_left_iff.2 (List.forall₂_iff_get.2
      ⟨(h row given).trans t.length_valueWidths.symm, ?_⟩)
    intro i there within
    rw [String.length_toList]
    exact ((least i within).2 row given).1 _ (List.getElem?_eq_getElem there)

end Widths

section Lines

variable {widths : List ℕ} {values : List String} {label : String} {labels : ℕ}

/-- The values of a line with the spaces in front of them. -/
def plainParts (widths : List ℕ) (values : List String) : List (List Char) :=
  (values.zip widths).map fun (value, w) => ' ' :: ' ' :: rightAligned w value.toList

/-- The parts of a line are as long as the columns are wide, with two spaces in front. -/
theorem map_length_plainParts (fits : Fits (values.map String.toList) widths) :
    (plainParts widths values).map List.length = widths.map (2 + ·) := by
  induction values generalizing widths with
  | nil =>
    cases fits
    rfl
  | cons value values ih =>
    cases fits with
    | cons first rest =>
      rw [plainParts, List.zip_cons_cons, List.map_cons, List.map_cons, List.map_cons, ← plainParts,
        ih rest]
      dsimp only
      rw [List.length_cons, List.length_cons, length_rightAligned first, Nat.add_comm 2]

/-- A value stands at the right of its part, behind two spaces at least. -/
theorem exists_plainParts_eq {j : ℕ} {value : String} (hvalue : values[j]? = some value)
    (within : j < (plainParts widths values).length) :
    ∃ spaces, 2 ≤ spaces ∧
      (plainParts widths values)[j] = List.replicate spaces ' ' ++ value.toList := by
  obtain ⟨there, rfl⟩ := List.getElem?_eq_some_iff.1 hvalue
  have room : j < widths.length := by
    simp only [plainParts, List.length_map, List.length_zip] at within
    exact (Nat.lt_min.1 within).2
  refine ⟨widths[j] - values[j].toList.length + 2, Nat.le_add_left _ _, ?_⟩
  simp [plainParts, rightAligned, List.replicate_succ]

/-- A line whose texts fit has them in place. -/
theorem plainLine_padded (short : label.length ≤ labels)
    (fits : Fits (values.map String.toList) widths) :
    PlainPadded labels widths label values (plainLine labels widths label values) := by
  have lengths := map_length_plainParts fits
  have front : (leftAligned labels label.toList).length = labels :=
    length_leftAligned (by rwa [String.length_toList])
  have whole : plainLine labels widths label values =
      leftAligned labels label.toList ++ (plainParts widths values).flatten := rfl
  rw [whole]
  constructor
  · rw [List.length_append, front, List.length_flatten, lengths]
  · exact ⟨_, List.take_left' front⟩
  · intro j value hvalue
    have within : j < (plainParts widths values).length := by
      have number := congrArg List.length lengths
      rw [List.length_map, List.length_map, ← fits.length_eq, List.length_map] at number
      exact number ▸ (List.getElem?_eq_some_iff.1 hvalue).1
    have start (k : ℕ) : columnStart labels widths k =
        (leftAligned labels label.toList).length +
          (((plainParts widths values).map List.length).take k).sum := by
      rw [front, lengths, columnStart, List.map_take]
    rw [start, start, List.take_length_add_append, List.drop_length_add_append,
      List.drop_take_succ_flatten_eq_getElem _ _ within]
    exact exists_plainParts_eq hvalue within

/-- A line is cut at its end. -/
theorem trimmedFrom_trimEnd (padded : List Char) : TrimmedFrom padded (trimEnd padded) := by
  obtain ⟨blanks, blank, whole⟩ := exists_trimEnd_append padded
  have settled : trimEnd (trimEnd padded) = trimEnd padded := by
    rw [← trimEnd_append_of_blank (trimEnd padded) blank, whole]
  exact ⟨⟨blanks, blank, whole⟩, trimEnd_eq_self_iff.1 settled⟩

end Lines

/-- A table whose rows have a value under each heading is laid out in plain text. -/
theorem Complete.plainLayout {t : Table} (h : t.Complete) :
    ∃ headings body, PlainLayout t t.plain t.labelWidth t.valueWidths headings body := by
  obtain ⟨headings, rows⟩ := h.fits_plain
  obtain ⟨heading, labels⟩ := labelWidth_le_iff.1 (Nat.le_refl t.labelWidth)
  refine ⟨_, t.plainBody,
    { lines := ?_
      labels_width := t.labelWidth_isGreatest
      length_widths := t.length_valueWidths
      values_width := fun _ _ _ => valueWidth_isLeast
      headings_line := ⟨_, plainLine_padded heading headings, trimmedFrom_trimEnd _⟩
      body_lines := ?_ }⟩
  · rw [toList_plain]
    simp [ofLines, plainHeads, List.flatMap]
  · rw [plainBody, List.forall₂_map_right_iff, List.forall₂_same]
    exact fun row given => ⟨_, plainLine_padded (labels row given) (rows row given),
      trimmedFrom_trimEnd _⟩

section Writing

variable {t : Table} (h : t.Complete) (minima : ∀ row ∈ t.rows, row.width < 2 ^ 16)

include h minima

/-- Every column in plain text can be filled exactly when every text can. -/
theorem Complete.overruns_text_iff :
    OutputFormat.text.overruns t = false ↔ ∀ s ∈ t.texts, s.length ≤ fillLimit := by
  have allowed : ∀ row ∈ t.rows, row.width ≤ fillLimit := fun row given =>
    Nat.le_of_lt_succ (minima row given)
  have columns : OutputFormat.text.overruns t = false ↔
      t.labelWidth ≤ fillLimit ∧ ∀ w ∈ t.valueWidths, w ≤ fillLimit := by
    simp [OutputFormat.overruns, OutputFormat.filledWidths, plainWidths]
  rw [columns, labelWidth_le_iff, h.valueWidths_le_iff allowed]
  simp only [texts, List.forall_mem_append, List.forall_mem_cons, List.mem_flatMap,
    forall_exists_index, and_imp]
  constructor
  · rintro ⟨⟨heading, labels⟩, headers, values⟩
    refine ⟨⟨heading, headers⟩, fun s row given there => ?_⟩
    rcases List.mem_cons.1 there with rfl | value
    · exact labels row given
    · exact values row given s value
  · rintro ⟨⟨heading, headers⟩, rows⟩
    exact ⟨⟨heading, fun row given => rows _ row given List.mem_cons_self⟩, headers,
      fun row given value there => rows value row given (List.mem_cons_of_mem _ there)⟩

/-- A table whose texts can be filled is written and laid out in plain text. -/
theorem Complete.write_text (short : ∀ s ∈ t.texts, s.length ≤ fillLimit) :
    ∃ text labels widths headings body, OutputFormat.text.write t = .ok text ∧
      PlainLayout t text labels widths headings body := by
  obtain ⟨headings, body, layout⟩ := h.plainLayout
  have written := (write_of_overruns_iff (h.overruns_text_iff minima)).1 short
  exact ⟨t.plain, _, _, headings, body, written, layout⟩

/-- A table with a text that cannot be filled ends the program. -/
theorem Complete.abandon_text (long : ∃ s ∈ t.texts, fillLimit < s.length) :
    OutputFormat.text.write t = .error .crashed :=
  (write_of_overruns_iff (h.overruns_text_iff minima)).2 long

end Writing

/-- What comes of writing a table in plain text whose rows have a value under each heading
and ask for a width of 16 bits. If every text has at most as many characters as a cell can
be filled to, then the table is written and laid out. Otherwise the program ends. -/
theorem write_text_outcome {t : Table} (h : t.Complete)
    (minima : ∀ row ∈ t.rows, row.width < 2 ^ 16) :
    ((∀ s ∈ t.texts, s.length ≤ fillLimit) →
      ∃ text labels widths headings body, OutputFormat.text.write t = .ok text ∧
        PlainLayout t text labels widths headings body) ∧
    ((∃ s ∈ t.texts, fillLimit < s.length) → OutputFormat.text.write t = .error .crashed) :=
  ⟨h.write_text minima, h.abandon_text minima⟩

/-- A table of one value in a column that its row asks to be wider. -/
def roomy : Table := ⟨"Summary", "summary", "Parameter", ["a"], [⟨"Machines", ["52"], 6⟩]⟩

/-- A table with a least width is laid out. -/
theorem write_text_roomy :
    roomy.Complete ∧ (∀ row ∈ roomy.rows, row.width < 2 ^ 16) ∧
      ∃ text labels widths headings body, OutputFormat.text.write roomy = .ok text ∧
        PlainLayout roomy text labels widths headings body := by
  have complete : roomy.Complete := by decide
  have minima : ∀ row ∈ roomy.rows, row.width < 2 ^ 16 := by decide
  exact ⟨complete, minima, (write_text_outcome complete minima).1 (by decide)⟩

/-- A table whose first heading has one character more than a cell can be filled to is not
written in plain text. -/
theorem stretched_not_written_text :
    (stretched 65536).Complete ∧ (∀ row ∈ (stretched 65536).rows, row.width < 2 ^ 16) ∧
      ∀ text, OutputFormat.text.write (stretched 65536) ≠ .ok text := by
  have minima : ∀ row ∈ (stretched 65536).rows, row.width < 2 ^ 16 := fun _ none => by cases none
  refine ⟨stretched_complete 65536, minima, fun text written => ?_⟩
  have beyond : fillLimit < (stretched 65536).nameColumn.length := by
    rw [stretched, length_letters, fillLimit]
    decide
  have ended := (stretched_complete 65536).abandon_text minima ⟨_, List.mem_cons_self, beyond⟩
  rw [ended] at written
  cases written

end Table

end RunReport
