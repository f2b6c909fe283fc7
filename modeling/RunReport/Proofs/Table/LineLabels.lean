import Mathlib.Data.List.Zip
import RunReport.Proofs.Text.Lines
import RunReport.Proofs.Text.Trimming
import RunReport.Table.Writing

/-!
# Labels read back from lines

In Org text and in plain text a table has one line for each row, so its labels
are read from the lines after the headings. A line break in a heading moves all
of these lines down, as neither format has another way to write one. The labels
of a table are therefore read back from its lines exactly when no heading has a
line break.
-/

namespace RunReport

/-- A label on one line without bars and without blanks at its ends. -/
structure IsLegible (label : String) : Prop where
  /-- There is no bar in the label. -/
  unbarred : '|' ∉ label.toList
  /-- There is no line break in the label. -/
  unbroken : '\n' ∉ label.toList
  /-- There are no blanks at its ends. -/
  trimmed : Text.trim label.toList = label.toList

/-- What holds for one of the texts that stand beside widths holds for one of the texts. -/
theorem exists_mem_zip_iff {α β : Type} {xs : List α} {ws : List β} {p : α → Prop}
    (enough : xs.length ≤ ws.length) : (∃ pair ∈ xs.zip ws, p pair.1) ↔ ∃ x ∈ xs, p x := by
  conv_rhs => rw [← List.map_fst_zip enough]
  simp only [List.mem_map, exists_exists_and_eq_and]

/-- A running maximum is within a limit exactly when its start and all numbers are. -/
theorem foldl_max_le_iff {α : Type} {xs : List α} (f : α → Nat) {start limit : Nat} :
    xs.foldl (fun w x => max w (f x)) start ≤ limit ↔
      start ≤ limit ∧ ∀ x ∈ xs, f x ≤ limit := by
  induction xs generalizing start with
  | nil => simp
  | cons x xs ih => rw [List.foldl_cons, ih, Nat.max_le, List.forall_mem_cons, and_assoc]

namespace Table

open Text

/-- A table of legible labels, each of which has one value on one line under each
heading. No heading ends in a blank. -/
structure Legible (t : Table) : Prop where
  /-- The title is on one line. -/
  title : '\n' ∉ t.title.toList
  /-- The key is on one line. -/
  dataRef : '\n' ∉ t.dataRef.toList
  /-- The heading of the labels is on one line. -/
  nameColumn : '\n' ∉ t.nameColumn.toList
  /-- The labels are legible. -/
  labels : ∀ row ∈ t.rows, IsLegible row.label
  /-- Each row has a value under each heading. -/
  complete : ∀ row ∈ t.rows, row.values.length = t.headers.length
  /-- The values are on one line. -/
  values : ∀ row ∈ t.rows, ∀ value ∈ row.values, '\n' ∉ value.toList
  /-- No heading ends in a blank. -/
  headers : ∀ header ∈ t.headers, ∃ before c,
    header.toList = before ++ [c] ∧ isBlank c = false

section Org

/-- The text between the first two bars of a line, without the blanks around it. -/
def orgLabel (line : List Char) : String :=
  String.ofList (trim ((Split.parts '|' line).getD 1 []))

/-- The labels that are read from a table in Org text: those of the lines from
the fifth one on. -/
def orgLabels (text : String) : List String := ((lines text.toList).drop 4).map orgLabel

/-- The cells of a line in Org text, filled up to their widths. -/
def orgFilled (align : Nat → List Char → List Char) (widths : List Nat)
    (cells : List (List Char)) : List (List Char) :=
  match cells.zip widths with
  | [] => []
  | (label, w) :: rest => leftAligned w label :: rest.map fun (cell, w) => align w cell

/-- A line in Org text before its break. -/
def orgCells (align : Nat → List Char → List Char) (widths : List Nat)
    (cells : List (List Char)) : List Char :=
  '|' :: (orgFilled align widths cells).flatMap fun cell => ' ' :: cell ++ [' ', '|']

variable {align : Nat → List Char → List Char} {widths : List Nat}

/-- A line has a break of its own exactly when one of its cells does. -/
theorem mem_orgCells_iff {cells : List (List Char)} (enough : cells.length ≤ widths.length)
    (keeps : ∀ w cs, '\n' ∈ align w cs ↔ '\n' ∈ cs) :
    '\n' ∈ orgCells align widths cells ↔ ∃ cell ∈ cells, '\n' ∈ cell := by
  have filled : '\n' ∈ orgCells align widths cells ↔
      ∃ cell ∈ orgFilled align widths cells, '\n' ∈ cell := by simp [orgCells]
  rw [filled]
  cases cells with
  | nil => rfl
  | cons label cells =>
    cases widths with
    | nil => cases enough
    | cons w widths =>
      have rest := exists_mem_zip_iff (p := ('\n' ∈ ·)) (Nat.le_of_succ_le_succ enough)
      simp only [orgFilled, List.zip_cons_cons, List.exists_mem_cons_iff, ← rest,
        mem_leftAligned (c := '\n') (by decide), List.mem_map, exists_exists_and_eq_and, keeps]

/-- The label of a line stands between its first two bars. -/
theorem orgLabel_orgCells {label : String} (legible : IsLegible label) (w : Nat)
    (cells : List (List Char)) :
    orgLabel (orgCells align (w :: widths) (label.toList :: cells)) = label := by
  have first : '|' ∉ ' ' :: leftAligned w label.toList ++ [' '] := by
    simp [mem_leftAligned, legible.unbarred]
  have line : ∃ rest, orgCells align (w :: widths) (label.toList :: cells) =
      [] ++ '|' :: ((' ' :: leftAligned w label.toList ++ [' ']) ++ '|' :: rest) := by
    simp [orgCells, orgFilled]
  obtain ⟨rest, line⟩ := line
  rw [orgLabel, line, Split.parts_append_cons, Split.parts_append_cons,
    Split.parts_of_notMem first]
  have blank : ∀ c ∈ [' '], isBlank c = true := List.forall_mem_singleton.2 rfl
  calc String.ofList (trim (' ' :: leftAligned w label.toList ++ [' ']))
      = String.ofList (trim (leftAligned w label.toList)) := by
        rw [trim_append_of_blank _ blank, trim_cons_of_blank rfl]
    _ = label := by rw [trim_leftAligned, legible.trimmed, String.ofList_toList]

/-- A cell has a break exactly when its text has one. -/
theorem mem_orgCell_iff {cell : String} : '\n' ∈ orgCell cell ↔ '\n' ∈ cell.toList := by
  have each (c : Char) : '\n' ∈ (if c = '|' then "\\vert\x7b\x7d".toList else [c]) ↔ c = '\n' := by
    split
    · rename_i bar
      rw [bar]
      decide
    · simp [eq_comm]
  simp only [orgCell, List.mem_flatMap, each, exists_eq_right]

/-- A cell without bars stays as it is. -/
theorem orgCell_of_notMem {cell : String} (unbarred : '|' ∉ cell.toList) :
    orgCell cell = cell.toList := by
  have each : ∀ c ∈ cell.toList, (if c = '|' then "\\vert\x7b\x7d".toList else [c]) = [c] :=
    fun c given => if_neg fun (bar : c = '|') => unbarred (bar ▸ given)
  rw [orgCell, List.flatMap_congr each, List.flatMap_singleton']

/-- Widening keeps the number of the columns. -/
theorem length_widen (widths : List Nat) (cells : List (List Char)) :
    (widen widths cells).length = widths.length := by
  induction widths generalizing cells with
  | nil => cases cells <;> rfl
  | cons w widths ih =>
    cases cells with
    | nil => rfl
    | cons cell cells => rw [widen, List.length_cons, ih, List.length_cons]

/-- There are as many widths as headings. -/
theorem length_orgWidths (t : Table) : t.orgWidths.length = t.headers.length + 1 := by
  have kept (rows : List (List (List Char))) (widths : List Nat) :
      (rows.foldl widen widths).length = widths.length := by
    induction rows generalizing widths with
    | nil => rfl
    | cons row rows ih => rw [List.foldl_cons, ih, length_widen]
  rw [orgWidths, kept, List.length_map, List.length_map, List.length_cons]

/-- The lines of a table in Org text that come before its rows. -/
def orgHeads (t : Table) : List (List Char) :=
  ["#+CAPTION: ".toList ++ t.title.toList, "#+NAME: ".toList ++ t.dataRef.toList,
    orgCells leftAligned t.orgWidths ((t.nameColumn :: t.headers).map orgCell),
    '|' :: ['+'].intercalate (t.orgWidths.map fun w => List.replicate (w + 2) '-') ++ ['|']]

/-- The lines of a table in Org text that hold its rows. -/
def orgBody (t : Table) : List (List Char) :=
  t.rows.map fun row => orgCells rightAligned t.orgWidths ((row.label :: row.values).map orgCell)

/-- A table in Org text consists of lines. -/
theorem toList_org (t : Table) : t.org.toList = ofLines (t.orgHeads ++ t.orgBody) := by
  have rows : (t.rows.map fun row => (row.label :: row.values).map orgCell).flatMap
      (orgLine rightAligned t.orgWidths) = ofLines t.orgBody := by
    rw [ofLines, orgBody, List.flatMap_map, List.flatMap_map]
    rfl
  have regroup : ∀ caption title name key cells rule : List Char,
      caption ++ title ++ ('\n' :: name) ++ key ++ '\n' :: (cells ++ ['\n']) ++
          ('|' :: rule ++ ['|', '\n']) ++ ofLines t.orgBody =
        ofLines ([caption ++ title, name ++ key, cells, '|' :: rule ++ ['|']] ++ t.orgBody) := by
    intros
    simp [ofLines]
  refine String.toList_ofList.trans ?_
  exact (congrArg _ rows).trans (regroup _ _ _ _ _ _)

/-- There is no break in the rule under the headings. -/
theorem notMem_orgRule (widths : List Nat) :
    '\n' ∉ '|' :: ['+'].intercalate (widths.map fun w => List.replicate (w + 2) '-') ++ ['|'] := by
  have dashes : '\n' ∉ ['+'].intercalate (widths.map fun w => List.replicate (w + 2) '-') := by
    induction widths with
    | nil => simp
    | cons w widths ih =>
      cases widths with
      | nil => simp
      | cons next widths =>
        rw [List.map_cons] at ih
        rw [List.map_cons, List.map_cons, List.intercalate_cons_cons]
        simpa using ih
  simpa using dashes

variable {t : Table}

/-- A line of cells is broken exactly when one of their texts is. -/
theorem mem_orgCells_texts_iff {texts : List String} (align : Nat → List Char → List Char)
    (keeps : ∀ w cs, '\n' ∈ align w cs ↔ '\n' ∈ cs) (size : texts.length = t.headers.length + 1) :
    '\n' ∈ orgCells align t.orgWidths (texts.map orgCell) ↔ ∃ s ∈ texts, '\n' ∈ s.toList := by
  have enough : (texts.map orgCell).length ≤ t.orgWidths.length := by
    rw [List.length_map, size, length_orgWidths]
  rw [mem_orgCells_iff enough keeps]
  simp only [List.mem_map, exists_exists_and_eq_and, mem_orgCell_iff]

/-- The lines of a legible table in Org text have no break exactly when its
headings have none. -/
theorem Legible.unbroken_org_iff (h : t.Legible) :
    (∀ line ∈ t.orgHeads ++ t.orgBody, '\n' ∉ line) ↔
      ∀ header ∈ t.headers, '\n' ∉ header.toList := by
  have caption : '\n' ∉ "#+CAPTION: ".toList ++ t.title.toList :=
    List.not_mem_append (by decide) h.title
  have name : '\n' ∉ "#+NAME: ".toList ++ t.dataRef.toList :=
    List.not_mem_append (by decide) h.dataRef
  have headings :
      '\n' ∉ orgCells leftAligned t.orgWidths ((t.nameColumn :: t.headers).map orgCell) ↔
      ∀ header ∈ t.headers, '\n' ∉ header.toList := by
    rw [mem_orgCells_texts_iff _ (fun _ _ => mem_leftAligned (by decide)) (List.length_cons)]
    simp [h.nameColumn]
  have body : ∀ line ∈ t.orgBody, '\n' ∉ line := by
    refine List.forall_mem_map.2 fun row given => ?_
    rw [mem_orgCells_texts_iff _ (fun _ _ => mem_rightAligned (by decide))
      (by rw [List.length_cons, h.complete row given])]
    simpa using ⟨(h.labels row given).unbroken, h.values row given⟩
  rw [List.forall_mem_append, and_iff_left body, orgHeads, List.forall_mem_cons,
    List.forall_mem_cons, List.forall_mem_cons, List.forall_mem_singleton, headings]
  exact ⟨fun all => all.2.2.1, fun unbroken => ⟨caption, name, unbroken, notMem_orgRule _⟩⟩

/-- The labels of a legible table are read back from Org text exactly when no
heading has a break. -/
theorem Legible.orgLabels_org_iff (h : t.Legible) :
    orgLabels t.org = t.rows.map (·.label) ↔ ∀ header ∈ t.headers, '\n' ∉ header.toList := by
  have reads : t.orgBody.map orgLabel = t.rows.map (·.label) := by
    obtain ⟨w, widths, present⟩ := List.exists_cons_of_length_eq_add_one t.length_orgWidths
    rw [orgBody, List.map_map, present]
    refine List.map_congr_left fun row given => ?_
    have legible := h.labels row given
    rw [Function.comp_apply, List.map_cons, orgCell_of_notMem legible.unbarred,
      orgLabel_orgCells legible]
  rw [← h.unbroken_org_iff, orgLabels, toList_org]
  exact map_drop_lines_eq_iff t.orgHeads reads

example : orgLabels (Table.org ⟨"T", "t", "M", ["a\nb"], [⟨"x", ["1"], 1⟩]⟩) =
    ["---+-----", "x"] := by
  decide +kernel

end Org

section Plain

/-- The start of a line, as wide as the column of labels, without the blanks around it. -/
def plainLabel (width : Nat) (line : List Char) : String := String.ofList (trim (line.take width))

/-- The labels that are read from a table in plain text whose column of labels has
the given width: those of the lines from the fourth one on. -/
def plainLabels (width : Nat) (text : String) : List String :=
  ((lines text.toList).drop 3).map (plainLabel width)

variable {t : Table} {label : String} {values : List String} {width : Nat} {widths : List Nat}

/-- A line has a break exactly when its label or one of its values does. -/
theorem mem_plainLine_iff (enough : values.length ≤ widths.length) :
    '\n' ∈ plainLine width widths label values ↔
      '\n' ∈ label.toList ∨ ∃ value ∈ values, '\n' ∈ value.toList := by
  have each := exists_mem_zip_iff (p := fun value : String => '\n' ∈ value.toList) enough
  rw [← each]
  simp [plainLine, mem_leftAligned, mem_rightAligned]

/-- A break in a value that does not end in a blank is kept when the end of the
line is cut. -/
theorem mem_trimEnd_plainLine {value : String} (enough : values.length ≤ widths.length)
    (given : value ∈ values) (broken : '\n' ∈ value.toList)
    (ending : ∃ before c, value.toList = before ++ [c] ∧ isBlank c = false) :
    '\n' ∈ trimEnd (plainLine width widths label values) := by
  obtain ⟨before, c, ends, filled⟩ := ending
  obtain ⟨⟨_, w⟩, hpair, rfl⟩ :=
    (exists_mem_zip_iff (p := (value = ·)) enough).2 ⟨value, given, rfl⟩
  obtain ⟨first, later, zipped⟩ := List.append_of_mem hpair
  have earlier : '\n' ∈ before := by
    have differs : '\n' ≠ c := by
      rintro rfl
      cases filled
    simpa [ends, differs] using broken
  have line : ∃ start rest, plainLine width widths label values =
      (start ++ before) ++ c :: rest := by
    let cells (pairs : List (String × Nat)) : List Char :=
      (pairs.map fun pair => ' ' :: ' ' :: rightAligned pair.2 pair.1.toList).flatten
    refine ⟨leftAligned width label.toList ++ (cells first ++
      ' ' :: ' ' :: List.replicate (w - (before ++ [c]).length) ' '), cells later, ?_⟩
    simp [plainLine, zipped, rightAligned, ends, cells]
  obtain ⟨start, rest, line⟩ := line
  rw [line]
  exact mem_trimEnd filled (List.mem_append_right start earlier)

/-- The label of a line is read back. -/
theorem plainLabel_trimEnd (legible : IsLegible label) (fits : label.length ≤ width) :
    plainLabel width (trimEnd (plainLine width widths label values)) = label := by
  have size : (leftAligned width label.toList).length = width :=
    length_leftAligned (by rwa [String.length_toList])
  rw [plainLabel, trim_take_trimEnd, plainLine, List.take_left' size, trim_leftAligned,
    legible.trimmed, String.ofList_toList]

/-- The column of labels is within a limit exactly when all that stands in it is. -/
theorem labelWidth_le_iff {limit : Nat} :
    t.labelWidth ≤ limit ↔
      t.nameColumn.length ≤ limit ∧ ∀ row ∈ t.rows, row.label.length ≤ limit :=
  foldl_max_le_iff _

/-- The column of labels is wide enough for each label. -/
theorem length_le_labelWidth {row : TableRow} (given : row ∈ t.rows) :
    row.label.length ≤ t.labelWidth :=
  (labelWidth_le_iff.1 (Nat.le_refl _)).2 row given

/-- The lines of a table in plain text that come before its rows. -/
def plainHeads (t : Table) : List (List Char) :=
  [t.title.toList, List.replicate t.title.length '=',
    trimEnd (plainLine t.labelWidth t.valueWidths t.nameColumn t.headers)]

/-- The lines of a table in plain text that hold its rows. -/
def plainBody (t : Table) : List (List Char) :=
  t.rows.map fun row => trimEnd (plainLine t.labelWidth t.valueWidths row.label row.values)

/-- A table in plain text consists of lines. -/
theorem toList_plain (t : Table) : t.plain.toList = ofLines (t.plainHeads ++ t.plainBody) := by
  refine String.toList_ofList.trans ?_
  simp [ofLines, plainHeads, plainBody, plainText, List.flatMap_map]

/-- The lines of a legible table in plain text have no break exactly when its
headings have none. -/
theorem Legible.unbroken_plain_iff (h : t.Legible) :
    (∀ line ∈ t.plainHeads ++ t.plainBody, '\n' ∉ line) ↔
      ∀ header ∈ t.headers, '\n' ∉ header.toList := by
  have enough {values : List String} (size : values.length = t.headers.length) :
      values.length ≤ t.valueWidths.length := by rw [size, valueWidths, List.length_mapIdx]
  have underline : '\n' ∉ List.replicate t.title.length '=' := by simp
  have headings : '\n' ∉ trimEnd (plainLine t.labelWidth t.valueWidths t.nameColumn t.headers) ↔
      ∀ header ∈ t.headers, '\n' ∉ header.toList := by
    constructor
    · intro unbroken header given broken
      exact unbroken (mem_trimEnd_plainLine (enough rfl) given broken (h.headers header given))
    · intro unbroken broken
      rcases (mem_plainLine_iff (enough rfl)).1 (mem_of_mem_trimEnd broken) with name | values
      · exact h.nameColumn name
      · obtain ⟨header, given, broken⟩ := values
        exact unbroken header given broken
  have body : ∀ line ∈ t.plainBody, '\n' ∉ line := by
    refine List.forall_mem_map.2 fun row given broken => ?_
    rcases (mem_plainLine_iff (enough (h.complete row given))).1 (mem_of_mem_trimEnd broken)
      with label | values
    · exact (h.labels row given).unbroken label
    · obtain ⟨value, hvalue, broken⟩ := values
      exact h.values row given value hvalue broken
  rw [List.forall_mem_append, and_iff_left body, plainHeads, List.forall_mem_cons,
    List.forall_mem_cons, List.forall_mem_singleton, headings]
  exact ⟨fun all => all.2.2, fun unbroken => ⟨h.title, underline, unbroken⟩⟩

/-- The labels of a legible table are read back from plain text exactly when no
heading has a break. -/
theorem Legible.plainLabels_plain_iff (h : t.Legible) :
    plainLabels t.labelWidth t.plain = t.rows.map (·.label) ↔
      ∀ header ∈ t.headers, '\n' ∉ header.toList := by
  have reads : t.plainBody.map (plainLabel t.labelWidth) = t.rows.map (·.label) := by
    rw [plainBody, List.map_map]
    refine List.map_congr_left fun row given => ?_
    exact plainLabel_trimEnd (h.labels row given) (length_le_labelWidth given)
  rw [← h.unbroken_plain_iff, plainLabels, toList_plain]
  exact map_drop_lines_eq_iff t.plainHeads reads

end Plain

end Table

end RunReport
