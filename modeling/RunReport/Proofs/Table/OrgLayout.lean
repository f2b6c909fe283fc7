import RunReport.Proofs.Table.Filling
import RunReport.Proofs.Table.LineLabels
import RunReport.Proofs.Text.Fences

/-!
# The layout of Org tables

The headings, the rule and the rows of a table in Org text are lines of one length, with
their bars at the same places. A bar in a text is replaced, so there are no other bars.
Between its bars each text stands in full, with a space at either side at least. All of
this holds of every table whose rows have a value under each heading and whose texts,
with their bars replaced, can be filled to the widths of the columns; of other such
tables nothing is written.
-/

namespace RunReport.Table

open Text

/-- Between two bars of a line stands a text, at the left or at the right, with one space
on that side and at least one on the other. -/
def Between (line : List Char) (bar next : ℕ) (cell : List Char) (atRight : Bool) : Prop :=
  ∃ before after, 1 ≤ before ∧ 1 ≤ after ∧ (if atRight then after = 1 else before = 1) ∧
    (line.take next).drop (bar + 1) =
      List.replicate before ' ' ++ cell ++ List.replicate after ' '

/-- A line of cells with bars at given places. The first of the cells stands at the left,
the others at the right if they are values. -/
structure OrgLine (bars : List ℕ) (size : ℕ) (values : Bool) (cells : List String)
    (chars : List Char) : Prop where
  /-- The line has the given length. -/
  length_eq : chars.length = size
  /-- It ends in a line break. -/
  last : chars.getLast? = some '\n'
  /-- The bars are the characters at the given places. -/
  bar_iff : ∀ i, chars[i]? = some '|' ↔ i ∈ bars
  /-- There is one bar more than there are cells. -/
  count_eq : chars.count '|' = cells.length + 1
  /-- Between two bars stands a cell, its own bars replaced. -/
  between : ∀ j cell bar next, cells[j]? = some cell → bars[j]? = some bar →
    bars[j + 1]? = some next → Between chars bar next (orgCell cell) (values && j != 0)

/-- The rule under the headings: bars at its ends, crossings at the other places, and
dashes between them. -/
structure OrgRule (bars : List ℕ) (size : ℕ) (chars : List Char) : Prop where
  /-- The rule has the given length. -/
  length_eq : chars.length = size
  /-- It ends in a line break. -/
  last : chars.getLast? = some '\n'
  /-- Each other character follows from its place. -/
  characters : ∀ i, i + 1 < size → chars[i]? =
    some (if i = 0 ∨ i + 2 = size then '|' else if i ∈ bars then '+' else '-')

/-- The lines of a table in Org text, with their common length and bars. -/
structure OrgLayout (t : Table) (text : String) (bars : List ℕ) (size : ℕ)
    (headings rule : List Char) (body : List (List Char)) : Prop where
  /-- The text is the caption, the name and then these lines. -/
  lines : text.toList = "#+CAPTION: ".toList ++ t.title.toList ++ ['\n'] ++
    "#+NAME: ".toList ++ t.dataRef.toList ++ ['\n'] ++ headings ++ rule ++ body.flatten
  /-- There is a bar before each column and one behind the last. -/
  length_bars : bars.length = t.headers.length + 2
  /-- The bars stand one behind the other. -/
  bars_pairwise : bars.Pairwise (· < ·)
  /-- The first bar begins a line. -/
  bars_head : bars.head? = some 0
  /-- The last bar stands before the line break. -/
  bars_last : ∃ last, bars.getLast? = some last ∧ last + 2 = size
  /-- The headings stand at the left. -/
  headings_line : OrgLine bars size false (t.nameColumn :: t.headers) headings
  /-- The rule has the same places. -/
  rule_line : OrgRule bars size rule
  /-- So does each row, with its label at the left and its values at the right. -/
  body_lines :
    List.Forall₂ (fun row => OrgLine bars size true (row.label :: row.values)) t.rows body

section Widths

variable {limit : ℕ} {widths : List ℕ} {cells : List (List Char)}

/-- Widened columns are within a limit exactly when they and the cells were. -/
theorem widen_le_iff (size : cells.length = widths.length) :
    (∀ w ∈ widen widths cells, w ≤ limit) ↔
      (∀ w ∈ widths, w ≤ limit) ∧ ∀ cell ∈ cells, cell.length ≤ limit := by
  induction widths generalizing cells with
  | nil =>
    rw [List.length_eq_zero_iff.1 size]
    simp [widen]
  | cons w widths ih =>
    cases cells with
    | nil => cases size
    | cons cell cells =>
      rw [widen, List.forall_mem_cons, List.forall_mem_cons, List.forall_mem_cons, Nat.max_le,
        ih (Nat.succ.inj size)]
      exact and_and_and_comm

/-- Cells fit the columns that are widened for them. -/
theorem fits_widen (size : cells.length = widths.length) : Fits cells (widen widths cells) := by
  induction widths generalizing cells with
  | nil =>
    rw [List.length_eq_zero_iff.1 size]
    exact .nil
  | cons w widths ih =>
    cases cells with
    | nil => cases size
    | cons cell cells => exact .cons (le_max_right _ _) (ih (Nat.succ.inj size))

/-- Cells that fit still do when columns are widened for others. -/
theorem Fits.widen {others : List (List Char)} (h : Fits cells widths) :
    Fits cells (widen widths others) := by
  induction h generalizing others with
  | nil =>
    cases others <;> exact .nil
  | cons first rest ih =>
    cases others with
    | nil => exact .cons first rest
    | cons other others => exact .cons (first.trans (le_max_left _ _)) ih

/-- Columns that are widened for several rows are within a limit exactly when they and all
cells were. -/
theorem foldl_widen_le_iff {rows : List (List (List Char))}
    (size : ∀ row ∈ rows, row.length = widths.length) :
    (∀ w ∈ rows.foldl Table.widen widths, w ≤ limit) ↔
      (∀ w ∈ widths, w ≤ limit) ∧ ∀ row ∈ rows, ∀ cell ∈ row, cell.length ≤ limit := by
  induction rows generalizing widths with
  | nil => simp
  | cons row rows ih =>
    obtain ⟨first, later⟩ := List.forall_mem_cons.1 size
    rw [List.foldl_cons, ih (fun r hr => (later r hr).trans (length_widen widths row).symm),
      widen_le_iff first, List.forall_mem_cons, and_assoc]

/-- Cells that fit the columns, and those of all rows, fit when columns are widened for the
rows. -/
theorem fits_foldl_widen {rows : List (List (List Char))}
    (size : ∀ row ∈ rows, row.length = widths.length) :
    (∀ cells, Fits cells widths → Fits cells (rows.foldl Table.widen widths)) ∧
      ∀ row ∈ rows, Fits row (rows.foldl Table.widen widths) := by
  induction rows generalizing widths with
  | nil => exact ⟨fun _ fits => fits, fun _ none => by cases none⟩
  | cons row rows ih =>
    obtain ⟨first, later⟩ := List.forall_mem_cons.1 size
    obtain ⟨kept, each⟩ := ih fun r hr => (later r hr).trans (length_widen widths row).symm
    exact ⟨fun cells fits => kept cells fits.widen,
      List.forall_mem_cons.2 ⟨kept row (fits_widen first), each⟩⟩

end Widths

/-- The cells of the headings and of the rows, bars replaced. -/
def orgRows (t : Table) : List (List (List Char)) :=
  t.rows.map fun row => (row.label :: row.values).map orgCell

/-- The cells of a row are as many as those of the headings. -/
theorem Complete.length_orgRows {t : Table} (h : t.Complete) :
    ∀ row ∈ t.orgRows,
      row.length = (((t.nameColumn :: t.headers).map orgCell).map List.length).length := by
  refine List.forall_mem_map.2 fun row given => ?_
  simp [h row given]

/-- The headings and the rows fit the columns. -/
theorem Complete.fits {t : Table} (h : t.Complete) :
    Fits ((t.nameColumn :: t.headers).map orgCell) t.orgWidths ∧
      ∀ row ∈ t.rows, Fits ((row.label :: row.values).map orgCell) t.orgWidths := by
  obtain ⟨kept, each⟩ := fits_foldl_widen h.length_orgRows
  refine ⟨kept _ ?_, fun row given => each _ (List.mem_map_of_mem given)⟩
  exact List.forall₂_map_right_iff.2 (List.forall₂_same.2 fun _ _ => Nat.le_refl _)

/-- Every column in Org text can be filled exactly when every text can, its bars replaced. -/
theorem Complete.overruns_org_iff {t : Table} (h : t.Complete) :
    OutputFormat.org.overruns t = false ↔ ∀ s ∈ t.texts, (orgCell s).length ≤ fillLimit := by
  have narrow := @foldl_widen_le_iff fillLimit _ _ h.length_orgRows
  have columns : OutputFormat.org.overruns t = false ↔ ∀ w ∈ t.orgWidths, w ≤ fillLimit := by
    simp [OutputFormat.overruns, OutputFormat.filledWidths]
  have cells : (∀ row ∈ t.orgRows, ∀ cell ∈ row, cell.length ≤ fillLimit) ↔
      ∀ s ∈ t.rows.flatMap fun row => row.label :: row.values,
        (orgCell s).length ≤ fillLimit := by
    simp only [orgRows, List.forall_mem_map, List.mem_flatMap, forall_exists_index, and_imp]
    exact ⟨fun all s row given there => all row given s there,
      fun all row given s there => all s row given there⟩
  rw [columns, texts, List.forall_mem_append, ← cells]
  refine narrow.trans (and_congr_left fun _ => ?_)
  simp only [List.forall_mem_map]

section Lines

variable {widths : List ℕ} {values : Bool}

/-- A cell filled from the left or from the right. -/
def filledTo (atRight : Bool) : ℕ → List Char → List Char :=
  if atRight then rightAligned else leftAligned

/-- A text that fits is filled up to the width of its cell. -/
theorem length_filledTo {atRight : Bool} {w : ℕ} {cs : List Char} (fits : cs.length ≤ w) :
    (filledTo atRight w cs).length = w := by
  cases atRight with
  | false => exact length_leftAligned fits
  | true => exact length_rightAligned fits

/-- There is no bar in a cell. -/
theorem notMem_orgCell (cell : String) : '|' ∉ orgCell cell := by
  have each (c : Char) : '|' ∉ (if c = '|' then "\\vert\x7b\x7d".toList else [c]) := by
    split
    · decide
    · rename_i other
      simpa using Ne.symm other
  simp only [orgCell, List.mem_flatMap, not_exists, not_and]
  exact fun c _ => each c

/-- A filled text with a space on either side has one space where it is aligned and at least
one on the other side. -/
theorem exists_filledTo_eq (atRight : Bool) (w : ℕ) (cs : List Char) :
    ∃ before after, 1 ≤ before ∧ 1 ≤ after ∧ (if atRight then after = 1 else before = 1) ∧
      ' ' :: filledTo atRight w cs ++ [' '] =
        List.replicate before ' ' ++ cs ++ List.replicate after ' ' := by
  cases atRight with
  | false =>
    refine ⟨1, w - cs.length + 1, le_rfl, Nat.succ_pos _, rfl, ?_⟩
    simp [filledTo, leftAligned, List.replicate_succ']
  | true =>
    refine ⟨w - cs.length + 1, 1, Nat.succ_pos _, le_rfl, rfl, ?_⟩
    simp [filledTo, rightAligned, List.replicate_succ]

/-- The cells of a line with the spaces around them. -/
def orgParts (values : Bool) (widths : List ℕ) (cells : List (List Char)) : List (List Char) :=
  (orgFilled (filledTo values) widths cells).map fun cell => ' ' :: cell ++ [' ']

/-- A line of cells is a fence of bars. -/
theorem orgCells_eq_fence (values : Bool) (widths : List ℕ) (cells : List (List Char)) :
    orgCells (filledTo values) widths cells = evenFence '|' (orgParts values widths cells) := by
  unfold orgCells orgParts evenFence
  generalize orgFilled (filledTo values) widths cells = filled
  induction filled with
  | nil => rfl
  | cons cell filled ih =>
    rw [List.map_cons, List.map_cons, fence, ← ih]
    simp

/-- The cell at a place of a line. -/
theorem getElem?_orgFilled {cells : List (List Char)} {j w : ℕ} {cell : List Char}
    (hcell : cells[j]? = some cell) (hw : widths[j]? = some w) :
    (orgFilled (filledTo values) widths cells)[j]? =
      some (filledTo (values && j != 0) w cell) := by
  have both : (cells.zip widths)[j]? = some (cell, w) := by
    rw [List.getElem?_zip_eq_some]
    exact ⟨hcell, hw⟩
  unfold orgFilled
  cases zipped : cells.zip widths with
  | nil =>
    rw [zipped] at both
    cases both
  | cons first rest =>
    rw [zipped] at both
    cases j with
    | zero =>
      obtain rfl := Option.some.inj both
      rw [bne_self_eq_false, Bool.and_false]
      rfl
    | succ j =>
      have later : rest[j]? = some (cell, w) := both
      have behind : (j + 1 != 0) = true := rfl
      dsimp only
      rw [List.getElem?_cons_succ, List.getElem?_map, later, behind, Bool.and_true]
      rfl

/-- The cells of a line are filled up to the widths of the columns. -/
theorem map_length_orgFilled {cells : List (List Char)} (fits : Fits cells widths) :
    (orgFilled (filledTo values) widths cells).map List.length = widths := by
  have each {cells : List (List Char)} {widths : List ℕ} (fits : Fits cells widths) :
      ((cells.zip widths).map fun pair => filledTo values pair.2 pair.1).map List.length =
        widths := by
    induction fits with
    | nil => rfl
    | cons first _ ih =>
      rw [List.zip_cons_cons, List.map_cons, List.map_cons, ih, length_filledTo first]
  cases fits with
  | nil => rfl
  | cons first rest => exact congrArg₂ List.cons (length_leftAligned first) (each rest)

/-- The parts of a line are as long as the columns are wide, with a space on either side. -/
theorem map_length_orgParts {cells : List (List Char)} (fits : Fits cells widths) :
    (orgParts values widths cells).map List.length = widths.map (· + 2) := by
  conv_rhs => rw [← @map_length_orgFilled widths values cells fits]
  simp [orgParts]

/-- The cells of a line are filled from those that are given. -/
theorem exists_of_mem_orgFilled {cells : List (List Char)} {filled : List Char}
    (h : filled ∈ orgFilled (filledTo values) widths cells) :
    ∃ cell ∈ cells, ∃ atRight w, filled = filledTo atRight w cell := by
  unfold orgFilled at h
  cases zipped : cells.zip widths with
  | nil =>
    rw [zipped] at h
    cases h
  | cons first rest =>
    rw [zipped] at h
    have among : ∀ entry ∈ first :: rest, entry.1 ∈ cells := fun entry given =>
      (List.of_mem_zip (zipped ▸ given : entry ∈ cells.zip widths)).1
    rcases List.mem_cons.1 h with label | later
    · exact ⟨first.1, among first List.mem_cons_self, false, first.2, label⟩
    · obtain ⟨entry, given, rfl⟩ := List.mem_map.1 later
      exact ⟨entry.1, among entry (List.mem_cons_of_mem _ given), values, entry.2, rfl⟩

/-- There is no bar in a part of a line. -/
theorem notMem_orgParts {texts : List String} :
    ∀ part ∈ orgParts values widths (texts.map orgCell), '|' ∉ part := by
  refine List.forall_mem_map.2 fun filled given => ?_
  obtain ⟨cell, hcell, atRight, w, rfl⟩ := exists_of_mem_orgFilled given
  obtain ⟨s, _, rfl⟩ := List.mem_map.1 hcell
  have none := notMem_orgCell s
  cases atRight with
  | false => simp [filledTo, mem_leftAligned, none]
  | true => simp [filledTo, mem_rightAligned, none]

/-- Where the bars of a line stand. -/
def orgBars (widths : List ℕ) : List ℕ := posts 0 (widths.map (· + 2))

/-- The length of a line with its break. -/
def orgSize (widths : List ℕ) : ℕ := (widths.map (· + 2)).sum + widths.length + 2

/-- The first bar begins a line. -/
theorem getElem?_orgBars_zero (widths : List ℕ) : (orgBars widths)[0]? = some 0 :=
  List.head?_eq_getElem?.symm.trans (head?_posts 0 _)

/-- The last bar stands behind all columns and other bars. -/
theorem getElem?_orgBars_last (widths : List ℕ) :
    (orgBars widths)[widths.length]? = some ((widths.map (· + 2)).sum + widths.length) := by
  simpa [orgBars] using getElem?_posts_last 0 (widths.map (· + 2))

/-- A bar stands at an end of a line exactly when it is the first or the last one. -/
theorem orgBars_end_iff {i j : ℕ} (place : (orgBars widths)[j]? = some i) :
    (i = 0 ↔ j = 0) ∧ (i + 2 = orgSize widths ↔ j = widths.length) := by
  have first := getElem?_orgBars_zero widths
  have last := getElem?_orgBars_last widths
  unfold orgSize
  constructor
  · constructor
    · intro h
      exact posts_inj place (first.trans (congrArg some h.symm))
    · intro h
      exact Option.some.inj (place.symm.trans (h ▸ first))
  · constructor
    · intro h
      exact posts_inj place (last.trans (congrArg some (by omega)))
    · intro h
      have same := Option.some.inj (place.symm.trans (h ▸ last))
      omega

/-- Between two bars of a line of texts that fit stands a text. -/
theorem orgCells_between {texts : List String} (fits : Fits (texts.map orgCell) widths)
    {j bar next : ℕ} {cell : String} (hcell : texts[j]? = some cell)
    (hbar : (orgBars widths)[j]? = some bar) (hnext : (orgBars widths)[j + 1]? = some next) :
    Between (orgCells (filledTo values) widths (texts.map orgCell)) bar next (orgCell cell)
      (values && j != 0) := by
  have lengths := @map_length_orgParts widths values _ fits
  have filled : (texts.map orgCell)[j]? = some (orgCell cell) := by
    rw [List.getElem?_map, hcell]
    rfl
  have within : j < widths.length := by
    rw [← fits.length_eq, List.length_map]
    exact (List.getElem?_eq_some_iff.1 hcell).1
  have part : (orgParts values widths (texts.map orgCell))[j]? =
      some (' ' :: filledTo (values && j != 0) widths[j] (orgCell cell) ++ [' ']) := by
    rw [orgParts, List.getElem?_map, getElem?_orgFilled filled (List.getElem?_eq_getElem within)]
    rfl
  obtain ⟨before, after, hbefore, hafter, side, eq⟩ :=
    exists_filledTo_eq (values && j != 0) widths[j] (orgCell cell)
  refine ⟨before, after, hbefore, hafter, side, ?_⟩
  rw [orgCells_eq_fence, ← eq]
  exact @take_drop_evenFence '|' _ j bar next _ part (by rwa [lengths]) (by rwa [lengths])

/-- A line of texts that fit has its bars and cells in place. -/
theorem orgLine_layout {texts : List String} (fits : Fits (texts.map orgCell) widths) :
    OrgLine (orgBars widths) (orgSize widths) values texts
      (orgCells (filledTo values) widths (texts.map orgCell) ++ ['\n']) := by
  have lengths := @map_length_orgParts widths values _ fits
  have number : (orgParts values widths (texts.map orgCell)).length = widths.length := by
    simpa using congrArg List.length lengths
  have total : texts.length = widths.length := by
    rw [← fits.length_eq, List.length_map]
  have none := @notMem_orgParts widths values texts
  have between := fun j cell bar next => @orgCells_between widths values texts fits j bar next cell
  have size := length_evenFence '|' (orgParts values widths (texts.map orgCell))
  have places := fun i => @getElem?_evenFence_iff '|' _ none i
  have count := count_evenFence none
  rw [lengths, number] at size
  rw [number, ← total] at count
  rw [lengths] at places
  rw [← orgCells_eq_fence] at size count places
  generalize orgCells (filledTo values) widths (texts.map orgCell) = line at *
  have shorter : ∀ k ∈ orgBars widths, k < line.length := by
    intro k there
    have := lt_of_mem_posts there
    rw [List.length_map] at this
    omega
  constructor
  · rw [List.length_append, size, List.length_singleton, orgSize]
  · exact List.getLast?_concat
  · intro i
    by_cases inside : i < line.length
    · rw [List.getElem?_append_left inside, places]
      rfl
    · refine iff_of_false (fun found => ?_) (fun there => inside (shorter i there))
      rw [List.getElem?_append_right (Nat.not_lt.1 inside)] at found
      have character := List.mem_of_getElem? found
      exact absurd character (by decide)
  · rw [List.count_append, count]
    rfl
  · intro j cell bar next hcell hbar hnext
    have room := shorter next (List.mem_of_getElem? hnext)
    rw [Between, List.take_append_of_le_length room.le]
    exact between j cell bar next hcell hbar hnext

/-- The dashes of a rule with the crossing or the bar behind them. -/
def ruleSpans : List ℕ → List (List Char × Char)
  | [] => []
  | [w] => [(List.replicate (w + 2) '-', '|')]
  | w :: next :: rest => (List.replicate (w + 2) '-', '+') :: ruleSpans (next :: rest)

/-- A rule is a fence of crossings, with bars at its ends. -/
theorem rule_eq_fence (post : Char) (present : widths ≠ []) :
    post :: ['+'].intercalate (widths.map fun w => List.replicate (w + 2) '-') ++ ['|'] =
      fence post (ruleSpans widths) := by
  induction widths generalizing post with
  | nil => exact absurd rfl present
  | cons w rest ih =>
    cases rest with
    | nil => simp [ruleSpans, fence]
    | cons next rest =>
      rw [ruleSpans, fence, ← ih '+' (List.cons_ne_nil _ _)]
      simp [List.intercalate_cons_cons]

/-- The dashes are as many as the columns are wide, with a space on either side. -/
theorem spanLengths_ruleSpans (widths : List ℕ) :
    spanLengths (ruleSpans widths) = widths.map (· + 2) := by
  induction widths with
  | nil => rfl
  | cons w rest ih =>
    cases rest with
    | nil => simp [ruleSpans, spanLengths]
    | cons next rest =>
      rw [List.map_cons, ← ih]
      simp [ruleSpans, spanLengths]

/-- There are only dashes between the crossings. -/
theorem eq_dash_of_mem_ruleSpans : ∀ entry ∈ ruleSpans widths, ∀ c ∈ entry.1, c = '-' := by
  induction widths with
  | nil => exact fun _ none => by cases none
  | cons w rest ih =>
    cases rest with
    | nil => exact List.forall_mem_singleton.2 fun c given => List.eq_of_mem_replicate given
    | cons next rest =>
      exact List.forall_mem_cons.2 ⟨fun c given => List.eq_of_mem_replicate given, ih⟩

/-- Behind the last dashes there is a bar, and a crossing behind all others. -/
theorem getElem?_ruleSpans {j : ℕ} (within : j < widths.length) :
    ((ruleSpans widths).map (·.2))[j]? = some (if j + 1 = widths.length then '|' else '+') := by
  induction widths generalizing j with
  | nil => cases within
  | cons w rest ih =>
    cases rest with
    | nil =>
      obtain rfl : j = 0 := Nat.lt_one_iff.1 within
      rfl
    | cons next rest =>
      cases j with
      | zero => rfl
      | succ j =>
        rw [ruleSpans, List.map_cons, List.getElem?_cons_succ, ih (Nat.lt_of_succ_lt_succ within)]
        simp

/-- The rule has its crossings where the lines have their bars. -/
theorem orgRule_layout (present : widths ≠ []) :
    OrgRule (orgBars widths) (orgSize widths)
      ('|' :: ['+'].intercalate (widths.map fun w => List.replicate (w + 2) '-') ++ ['|'] ++
        ['\n']) := by
  have lengths := spanLengths_ruleSpans widths
  have number : (ruleSpans widths).length = widths.length := by
    simpa [spanLengths] using congrArg List.length lengths
  have size : (fence '|' (ruleSpans widths)).length + 1 = orgSize widths := by
    rw [length_fence, lengths, number, orgSize]
  rw [rule_eq_fence '|' present]
  constructor
  · rw [List.length_append, List.length_singleton, size]
  · exact List.getLast?_concat
  · intro i inside
    rw [List.getElem?_append_left (by omega)]
    by_cases there : i ∈ orgBars widths
    · obtain ⟨j, place⟩ := List.getElem?_of_mem there
      have within : j < widths.length + 1 := by
        have within := (List.getElem?_eq_some_iff.1 place).1
        rwa [orgBars, length_posts, List.length_map] at within
      have post := @getElem?_fence_post (ruleSpans widths) '|' 0 j i (by rwa [lengths])
      obtain ⟨head, tail⟩ := orgBars_end_iff place
      rw [Nat.sub_zero] at post
      rw [post]
      simp only [head, tail]
      cases j with
      | zero => simp
      | succ j =>
        rw [List.getElem?_cons_succ, getElem?_ruleSpans (Nat.lt_of_succ_lt_succ within)]
        simp [there]
    · obtain ⟨entry, given, c, hc, character⟩ :=
        @exists_mem_span (ruleSpans widths) '|' 0 i (by omega) (by rwa [Nat.zero_add, lengths])
      have notEnd : ¬ (i = 0 ∨ i + 2 = orgSize widths) := by
        unfold orgSize
        rintro (rfl | last)
        · exact there (List.mem_of_getElem? (getElem?_orgBars_zero widths))
        · obtain rfl : i = (widths.map (· + 2)).sum + widths.length := by omega
          exact there (List.mem_of_getElem? (getElem?_orgBars_last widths))
      rw [character, eq_dash_of_mem_ruleSpans entry given c hc, if_neg notEnd, if_neg there]

end Lines

/-- A table whose rows have a value under each heading is laid out in Org text. -/
theorem Complete.orgLayout {t : Table} (h : t.Complete) :
    ∃ bars size headings rule body, OrgLayout t t.org bars size headings rule body := by
  obtain ⟨headings, rows⟩ := h.fits
  have number := t.length_orgWidths
  have present : t.orgWidths ≠ [] := by
    intro none
    rw [none] at number
    cases number
  have regroup : ∀ caption title name key headings rule : List Char,
      ofLines ([caption ++ title, name ++ key, headings, rule] ++ t.orgBody) =
        caption ++ title ++ ['\n'] ++ name ++ key ++ ['\n'] ++ (headings ++ ['\n']) ++
          (rule ++ ['\n']) ++ (t.orgBody.map fun line => line ++ ['\n']).flatten := by
    intros
    simp [ofLines, List.flatMap]
  refine ⟨orgBars t.orgWidths, orgSize t.orgWidths, _, _, t.orgBody.map fun line => line ++ ['\n'],
    { lines := (toList_org t).trans (regroup _ _ _ _ _ _)
      length_bars := ?_
      bars_pairwise := posts_pairwise _ _
      bars_head := head?_posts _ _
      bars_last := ⟨_, getLast?_posts _ _, ?_⟩
      headings_line := orgLine_layout headings
      rule_line := orgRule_layout present
      body_lines := ?_ }⟩
  · rw [orgBars, length_posts, List.length_map, number]
  · rw [orgSize, List.length_map]
    omega
  · rw [orgBody, List.map_map, List.forall₂_map_right_iff, List.forall₂_same]
    exact fun row given => orgLine_layout (rows row given)

section Writing

variable {t : Table} (h : t.Complete)

include h

/-- A table whose texts can be filled is written and laid out in Org text. -/
theorem Complete.write_org (short : ∀ s ∈ t.texts, (orgCell s).length ≤ fillLimit) :
    ∃ text bars size headings rule body, OutputFormat.org.write t = .ok text ∧
      OrgLayout t text bars size headings rule body := by
  obtain ⟨bars, size, headings, rule, body, layout⟩ := h.orgLayout
  have written := (write_of_overruns_iff h.overruns_org_iff).1 short
  exact ⟨t.org, bars, size, headings, rule, body, written, layout⟩

/-- A table with a text that cannot be filled ends the program. -/
theorem Complete.abandon_org (long : ∃ s ∈ t.texts, fillLimit < (orgCell s).length) :
    OutputFormat.org.write t = .error .crashed :=
  (write_of_overruns_iff h.overruns_org_iff).2 long

end Writing

/-- What comes of writing a table in Org text whose rows have a value under each heading. If
every text, its bars replaced, has at most as many characters as a cell can be filled to,
then the table is written and laid out. Otherwise the program ends. -/
theorem write_org_outcome {t : Table} (h : t.Complete) :
    ((∀ s ∈ t.texts, (orgCell s).length ≤ fillLimit) →
      ∃ text bars size headings rule body, OutputFormat.org.write t = .ok text ∧
        OrgLayout t text bars size headings rule body) ∧
    ((∃ s ∈ t.texts, fillLimit < (orgCell s).length) →
      OutputFormat.org.write t = .error .crashed) :=
  ⟨h.write_org, h.abandon_org⟩

/-- A table of two values, with a bar in a heading and in the label. -/
def barred : Table := ⟨"T", "t", "M", ["a|b", "c"], [⟨"x|y", ["1", "22"], 1⟩]⟩

/-- A table with bars in its texts is laid out. -/
theorem write_org_barred :
    barred.Complete ∧ ∃ text bars size headings rule body,
      OutputFormat.org.write barred = .ok text ∧
        OrgLayout barred text bars size headings rule body := by
  have complete : barred.Complete := by decide
  exact ⟨complete, (write_org_outcome complete).1 (by decide)⟩

/-- Letters take the width of as many characters. -/
theorem length_orgCell_letters (n : ℕ) : (orgCell (letters n)).length = n := by
  have unbarred : '|' ∉ (letters n).toList := by
    rw [letters, String.toList_ofList]
    exact fun given => absurd (List.eq_of_mem_replicate given) (by decide)
  rw [orgCell_of_notMem unbarred, String.length_toList, length_letters]

/-- A table whose first heading has one character more than a cell can be filled to is not
written in Org text. -/
theorem stretched_not_written_org :
    (stretched 65536).Complete ∧
      ∀ text, OutputFormat.org.write (stretched 65536) ≠ .ok text := by
  refine ⟨stretched_complete 65536, fun text written => ?_⟩
  have beyond : fillLimit < (orgCell (stretched 65536).nameColumn).length := by
    rw [stretched, length_orgCell_letters, fillLimit]
    decide
  have ended := (stretched_complete 65536).abandon_org ⟨_, List.mem_cons_self, beyond⟩
  rw [ended] at written
  cases written

end RunReport.Table
