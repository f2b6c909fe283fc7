import RunReport.Proofs.Report.Contents
import RunReport.Proofs.Report.Emission
import RunReport.Proofs.Report.Standard

/-!
# Every table in its place

The tree that a template is filled in from has one table for each section of an
accepted layout, under the key of the section, beside the table that lists the
runs. Nothing is lost and nothing is put in the place of something else: each text
is also that of the section's own file. The join of the tables has those of all
sections but the summary, in the order of the layout. Only a table that cannot be
filled leaves nothing at all: the program ends, whatever the template.
-/

namespace RunReport

namespace Rendered

variable {sets : List SectionSet} {entries : List (SectionPlan × Table)}

/-- Rendering sections in a format comes down to a tree and to files, whatever the
template: a template that can be filled in from the tree gives a report with these
files that carries the text of the tree, and any other is refused for its fault. -/
structure RendersFrom (format : OutputFormat) (c : Context) (sets : List SectionSet)
    (tree : Json) (files : List TableFile) : Prop where
  /-- The tree is the context in the format with the tables of the runs and of the sections. -/
  made : ∃ manifest texts, format.write c.manifest = .ok manifest ∧
    tableTexts format sets = .ok texts ∧ tree = Rendered.tree format c manifest texts
  /-- The template decides about the report. -/
  decided : ∀ template, render format template c sets = match Template.render template tree with
    | .ok text => .ok ⟨format, reportFile format c, text, files, template, tree.pretty⟩
    | .error fault => .error (.refused (.templateError format.name fault.message))

/-- What is rendered from a tree does not end the program. -/
theorem RendersFrom.ne_crashed {format : OutputFormat} {c : Context} {tree : Json}
    {files : List TableFile} (h : RendersFrom format c sets tree files) (template : String) :
    render format template c sets ≠ .error .crashed := by
  rw [h.decided]
  split <;> simp

/-- The tables of the given sections are in a tree and in files: each of them once,
with one and the same text in both, and beside them the table of the runs. -/
structure KeepsTables (format : OutputFormat) (c : Context) (entries : List (SectionPlan × Table))
    (tree : Json) (files : List TableFile) : Prop where
  /-- The tree has the table of the runs and then one table for each section. -/
  tables : tree.get? "tables" = some (.object
    ((Layout.manifestKey, .string (format.table c.manifest)) ::
      entries.map fun entry => (entry.1.dataRef, .string (format.table entry.2))))
  /-- The keys of these tables are distinct. -/
  distinct : (Layout.manifestKey :: entries.map (·.1.dataRef)).Nodup
  /-- The table of the runs is found under the reserved key. -/
  manifest : (tree.get? "tables").bind (Json.get? Layout.manifestKey) =
    some (.string (format.table c.manifest))
  /-- The table of a section is found under the key of the section. -/
  found : ∀ entry ∈ entries, (tree.get? "tables").bind (Json.get? entry.1.dataRef) =
    some (.string (format.table entry.2))
  /-- Each section has one file, with its table. -/
  files : files = entries.map fun entry =>
    ⟨entry.1.targetFile ++ "." ++ format.extension, format.table entry.2⟩
  /-- The join has the tables of the sections whose key is not that of the summary. -/
  joined : tree.get? "tables_all" = some (.string ("\n".intercalate
    ((entries.filter fun entry => entry.1.dataRef ≠ c.summary.dataRef).map
      fun entry => format.table entry.2)))

/-- The keys of an accepted layout and the reserved key are distinct. -/
theorem nodup_tableKeys (accepted : Layout.check (entries.map (·.1)) = .ok ()) :
    (Layout.manifestKey :: entries.map (·.1.dataRef)).Nodup := by
  have keys : (entries.map (·.1)).map (·.dataRef) = entries.map (·.1.dataRef) := List.map_map
  have distinct := Layout.nodup_keys_of_check accepted
  rw [keys] at distinct
  refine List.nodup_cons.2 ⟨fun taken => ?_, distinct⟩
  obtain ⟨plan, listed, same⟩ := List.mem_map.1 (keys ▸ taken)
  exact (Layout.check_eq_ok_iff.1 accepted).1 plan listed same

/-- Tables of an accepted layout stand in its order, that of the runs first. -/
theorem tableMembers_textsOf (format : OutputFormat) (manifest : String)
    (accepted : Layout.check (entries.map (·.1)) = .ok ()) :
    tableMembers manifest (textsOf format entries) =
      (Layout.manifestKey, .string manifest) ::
        entries.map fun entry => (entry.1.dataRef, .string (format.table entry.2)) := by
  rw [tableMembers, textsOf, List.foldl_map]
  exact Json.foldl_upsert_eq_append (nodup_tableKeys accepted)

/-- A key of the tree leads as far as the same part of a path. -/
theorem get?_tree (format : OutputFormat) (c : Context) (manifest : String)
    (texts : List (SectionPlan × String)) (key : String) :
    (tree format c manifest texts).get? key =
      Template.step key.toList (tree format c manifest texts) := by
  obtain ⟨members, _, extended⟩ := exists_tree_eq format c manifest texts
  rw [extended, Template.step, String.ofList_toList, Json.get?]

/-- The join of a tree has the tables of the sections that are not the summary. -/
theorem get?_treeOf_all (format : OutputFormat) (c : Context)
    (entries : List (SectionPlan × Table)) : (treeOf format c entries).get? "tables_all" =
      some (.string ("\n".intercalate ((entries.filter fun entry =>
        entry.1.dataRef ≠ c.summary.dataRef).map fun entry => format.table entry.2))) := by
  rw [treeOf, get?_tree, step_tree_all, joinedTables, textsOf, List.filter_map, List.map_map]
  rfl

/-- The files of tables. -/
def filesOf (format : OutputFormat) (entries : List (SectionPlan × Table)) : List TableFile :=
  entries.map fun entry => ⟨entry.1.targetFile ++ "." ++ format.extension, format.table entry.2⟩

/-- The tree and the files of an accepted layout keep its tables. -/
theorem keepsTables_treeOf (format : OutputFormat) (c : Context)
    (accepted : Layout.check (entries.map (·.1)) = .ok ()) :
    KeepsTables format c entries (treeOf format c entries) (filesOf format entries) := by
  have listed : Layout.check ((textsOf format entries).map (·.1)) = .ok () :=
    (map_plan_textsOf format entries).symm ▸ accepted
  have tables : (treeOf format c entries).get? "tables" = _ :=
    (get?_tree ..).trans step_tree_tables
  refine {
    tables := tables.trans (by rw [tableMembers_textsOf format _ accepted])
    distinct := nodup_tableKeys accepted
    manifest := ?_
    found := fun entry given => ?_
    files := rfl
    joined := get?_treeOf_all format c entries }
  · rw [tables]
    exact lookup_manifest listed
  · rw [tables]
    exact lookup_tableMembers listed (List.mem_map_of_mem given)

section Tabulated

variable {format : OutputFormat} {c : Context}

/-- Sections of an accepted layout whose tables can be filled are rendered from their tree. -/
theorem rendersFrom_treeOf (accepted : Layout.check (sets.map (·.plan)) = .ok ())
    (each : List.Forall₂ SectionSet.HasTable sets entries)
    (fillable : Fillable format c entries) :
    RendersFrom format c sets (treeOf format c entries) (filesOf format entries) where
  made := by
    obtain ⟨list, others⟩ := List.forall_mem_cons.1 fillable
    exact ⟨_, _, OutputFormat.write_eq_ok_iff.2 ⟨list, rfl⟩,
      tableTexts_eq_ok_iff.2 ⟨entries, each, List.forall_mem_map.1 others, rfl⟩, rfl⟩
  decided template := render_of_fillable accepted each fillable

/-- Sections of an accepted layout whose tables can be filled are rendered from a tree
and into files that keep these tables. -/
theorem exists_keepsTables (accepted : Layout.check (sets.map (·.plan)) = .ok ())
    (each : List.Forall₂ SectionSet.HasTable sets entries)
    (fillable : Fillable format c entries) :
    ∃ tree files, RendersFrom format c sets tree files ∧
      KeepsTables format c entries tree files :=
  ⟨_, _, rendersFrom_treeOf accepted each fillable,
    keepsTables_treeOf format c (map_plan_of_tables each ▸ accepted)⟩

end Tabulated

/-- A report in a format on some runs: its template was filled in from a tree whose join
of tables has those of the analyses, in the order of the layout, and not the summary. -/
structure JoinsAnalyses (report : Rendered) (plan : ReportPlan) (format : OutputFormat)
    (identity : Identity) (base : Run) (comparisons : List Run) (tree : Json)
    (summary : TableFile) (analyses : List TableFile) : Prop where
  /-- The tree is that of the report in the format. -/
  made : plan.TreeIn identity base comparisons format tree
  /-- The report carries the text of the tree. -/
  carried : report.contextJson = tree.pretty
  /-- Its own text is the template filled in from the tree. -/
  filled : Template.render (plan.templates.get format) tree = .ok report.text
  /-- Its files are one for the summary and one for each analysis. -/
  tables : report.tables = summary :: analyses
  /-- The first file has the table of the runs under the plan of the summary. -/
  summary_table : IsTableOf format plan.registry (base :: comparisons) plan.summary summary.text
  /-- The others have those under the plans of the analyses, in turn. -/
  analysis_tables : List.Forall₂ (fun part (file : TableFile) =>
    IsTableOf format plan.registry (base :: comparisons) part file.text) plan.analyses analyses
  /-- The join has exactly the texts of the others, each once. -/
  joined : tree.get? "tables_all" =
    some (.string ("\n".intercalate (analyses.map (·.text))))

end Rendered

namespace ReportPlan

variable {plan : ReportPlan} {identity : Identity} {base : Run} {comparisons : List Run}
  {c : Context} {sets : List SectionSet}

/-- In a prepared report the sections whose key is not that of the context's summary are
the analyses. -/
theorem Prepared.filter_analyses (h : Prepared plan identity base comparisons c sets)
    {summary : SectionPlan × Table} {analyses : List (SectionPlan × Table)}
    (plans : (summary :: analyses).map (·.1) = plan.layout) :
    ((summary :: analyses).filter fun entry => entry.1.dataRef ≠ c.summary.dataRef) =
      analyses := by
  have key : c.summary.dataRef = summary.1.dataRef := by
    rw [(Context.parts_of_assemble h.assembled).2.2]
    exact congrArg (·.dataRef) (List.cons.inj plans).1.symm
  have distinct := Layout.nodup_keys_of_check (plans ▸ h.accepted)
  rw [List.map_map] at distinct
  have others : ∀ entry ∈ analyses, entry.1.dataRef ≠ c.summary.dataRef := by
    intro entry listed same
    exact (List.nodup_cons.1 distinct).1 (List.mem_map.2 ⟨entry, listed, same.trans key⟩)
  rw [List.filter_cons_of_neg (by simp [key]), List.filter_eq_self.2]
  exact fun entry listed => decide_eq_true (others entry listed)

/-- A prepared report that is rendered in a format joins its analyses. -/
theorem Prepared.exists_joinsAnalyses (h : Prepared plan identity base comparisons c sets)
    {format : OutputFormat} {report : Rendered}
    (rendered : Rendered.render format (plan.templates.get format) c sets = .ok report) :
    ∃ tree summary analyses,
      report.JoinsAnalyses plan format identity base comparisons tree summary analyses := by
  obtain ⟨entries, each⟩ := h.exists_entries
  have plans := h.map_plan_entries each
  have presents := h.presents each
  obtain ⟨_, text, filled, rfl⟩ := h.exists_ofText_of_render each rendered
  cases entries with
  | nil => cases plans
  | cons summary analyses =>
    obtain ⟨first, others⟩ := List.forall₂_cons.1 presents
    refine ⟨_, _, Rendered.filesOf format analyses, {
      made := (h.treeIn_iff each).2 rfl
      carried := rfl
      filled
      tables := rfl
      summary_table := ⟨summary.2, first.2, rfl⟩
      analysis_tables := List.forall₂_map_right_iff.2
        (others.imp fun part entry presented => ⟨entry.2, presented.2, rfl⟩)
      joined := ?_ }⟩
    rw [Rendered.get?_treeOf_all, h.filter_analyses plans, Rendered.filesOf, List.map_map]
    rfl

end ReportPlan

/-- No table is lost or put in the place of another. In each format whose cells have room
for the texts, the tree that a template is filled in from has one table for each section of
an accepted layout and the table of the runs, each under its own key, and each section's
file has the same text; the join has the tables of the sections that are not the context's
summary. In a format without room the program ends, whatever the template. In a report that
is generated the joined tables are the analyses, each once and in the order of the layout. -/
theorem Rendered.keeps_every_table (c : Context) (sets : List SectionSet) :
    (Layout.check (sets.map (·.plan)) = .ok () →
      (∀ set ∈ sets, ∃ t, Table.transpose set = .ok t) →
      ∃ entries, List.Forall₂ SectionSet.HasTable sets entries ∧ ∀ format,
        (Fillable format c entries → ∃ tree files,
          RendersFrom format c sets tree files ∧ KeepsTables format c entries tree files) ∧
        (¬ Fillable format c entries → ∀ template,
          render format template c sets = .error .crashed)) ∧
    ∀ (plan : ReportPlan) (identity : Identity) (base : Run) (comparisons : List Run)
      (formats : List OutputFormat) (reports : List Rendered),
      plan.generate identity base comparisons formats = .ok reports →
      List.Forall₂ (fun format (report : Rendered) => ∃ tree summary analyses,
        report.JoinsAnalyses plan format identity base comparisons tree summary analyses)
        formats reports := by
  constructor
  · intro accepted transposable
    obtain ⟨entries, each⟩ := SectionSet.exists_tables transposable
    exact ⟨entries, each, fun format => ⟨exists_keepsTables accepted each,
      fun wide template => render_of_not_fillable accepted each wide⟩⟩
  · intro plan identity base comparisons formats reports generated
    obtain ⟨c, sets, h⟩ := ReportPlan.exists_prepared_of_generate generated
    rw [h.generate_eq] at generated
    exact (Traversal.mapM_eq_ok_iff.1 generated).imp fun _ _ rendered =>
      h.exists_joinsAnalyses rendered

/-- The sections with odd texts under the key of the summary. -/
def Rendered.oddSummary : SectionSet :=
  { oddSections with plan := SectionPlan.ofKey "Run" "summary" .summary .all }

/-- A summary and one more section with odd texts have an accepted layout and tables. -/
theorem Rendered.odd_suit : Layout.check ([oddSummary, oddSections].map (·.plan)) = .ok () ∧
    ∀ set ∈ [oddSummary, oddSections], ∃ t, Table.transpose set = .ok t :=
  ⟨rfl, List.forall_mem_cons.2 ⟨⟨_, rfl⟩, List.forall_mem_singleton.2 ⟨_, rfl⟩⟩⟩

/-- The tables of these sections. -/
def Rendered.oddEntries : List (SectionPlan × Table) :=
  [oddSummary, oddSections].filterMap fun set =>
    (Table.transpose set).toOption.map fun t => (set.plan, t)

/-- Each of these sections has its table. -/
theorem Rendered.hasTable_odd :
    List.Forall₂ SectionSet.HasTable [oddSummary, oddSections] oddEntries :=
  .cons ⟨rfl, rfl⟩ (.cons ⟨rfl, rfl⟩ .nil)

/-- Every table of these sections can be filled, whatever the format. -/
theorem Rendered.fillable_odd (format : OutputFormat) :
    Fillable format oddContext oddEntries := by
  cases format <;> decide +kernel

/-- A summary and one more section with odd texts keep their tables in each format, and
so do two standard reports on two runs. -/
theorem Rendered.keeps_odd_tables :
    (Layout.check ([oddSummary, oddSections].map (·.plan)) = .ok () ∧
      (∀ set ∈ [oddSummary, oddSections], ∃ t, Table.transpose set = .ok t) ∧
      ∃ entries, List.Forall₂ SectionSet.HasTable [oddSummary, oddSections] entries ∧
        ∀ format, Fillable format oddContext entries ∧ ∃ tree files,
          RendersFrom format oddContext [oddSummary, oddSections] tree files ∧
            KeepsTables format oddContext entries tree files) ∧
    ∃ reports, ReportPlan.standard.generate ReportPlan.tagAuthor (Run.level "a" 1)
        [Run.level "b" 2] [.latex, .text] = .ok reports ∧
      List.Forall₂ (fun format (report : Rendered) => ∃ tree summary analyses,
        report.JoinsAnalyses ReportPlan.standard format ReportPlan.tagAuthor (Run.level "a" 1)
          [Run.level "b" 2] tree summary analyses) [.latex, .text] reports := by
  obtain ⟨accepted, transposable⟩ := odd_suit
  obtain ⟨entries, each, kept⟩ := (keeps_every_table oddContext _).1 accepted transposable
  obtain rfl := SectionSet.tables_unique each hasTable_odd
  have room : ∀ format ∈ [OutputFormat.latex, .text],
      ∀ run ∈ [Run.level "a" 1, Run.level "b" 2], ReportPlan.standard.HasRoom format run := by
    decide +kernel
  obtain ⟨reports, generated⟩ := ReportPlan.standard_suitsEveryRun.exists_generate
    ReportPlan.tagAuthor (List.cons_ne_nil (Run.level "b" 2) []) room
  exact ⟨⟨accepted, transposable, oddEntries, each, fun format =>
    ⟨fillable_odd format, (kept format).1 (fillable_odd format)⟩⟩,
    reports, generated, (keeps_every_table oddContext []).2 _ _ _ _ _ _ generated⟩

/-- Sections whose first heading is too long for a cell in Org text. -/
def Rendered.wideSections : SectionSet :=
  { oddSections with plan := { oddSections.plan with nameColumn := Table.letters 65536 } }

/-- These sections have an accepted layout and a table. -/
theorem Rendered.wide_suit : Layout.check ([wideSections].map (·.plan)) = .ok () ∧
    ∀ set ∈ [wideSections], ∃ t, Table.transpose set = .ok t :=
  ⟨rfl, List.forall_mem_singleton.2 ⟨_, rfl⟩⟩

/-- In Org text they end the program, whatever the template. -/
theorem Rendered.render_wide (c : Context) (template : String) :
    render .org template c [wideSections] = .error .crashed := by
  obtain ⟨accepted, transposable⟩ := wide_suit
  obtain ⟨entries, each⟩ := SectionSet.exists_tables transposable
  obtain ⟨entry, none, has, _, rfl⟩ := List.forall₂_cons_left_iff.1 each
  refine render_of_not_fillable accepted each fun fillable => ?_
  obtain ⟨first, others, _, made⟩ := Table.exists_ofAligned_of_transpose has.turned
  have heading : entry.2.nameColumn = Table.letters 65536 := by
    rw [made]
    rfl
  have narrow : OutputFormat.org.overruns entry.2 = false :=
    fillable entry.2 (List.mem_cons_of_mem _ List.mem_cons_self)
  have short := (Table.complete_of_transpose has.turned).overruns_org_iff.1 narrow
    (Table.letters 65536) (heading ▸ List.mem_cons_self)
  rw [Table.length_orgCell_letters] at short
  exact absurd short (by decide)

/-- Sections of an accepted layout that have a table, and yet there is no tree for them in
Org text. -/
theorem Rendered.no_tree_of_wide :
    Layout.check ([wideSections].map (·.plan)) = .ok () ∧
      (∀ set ∈ [wideSections], ∃ t, Table.transpose set = .ok t) ∧
      ¬ ∃ tree files, RendersFrom .org oddContext [wideSections] tree files := by
  refine ⟨wide_suit.1, wide_suit.2, ?_⟩
  rintro ⟨tree, files, made⟩
  exact made.ne_crashed "" (render_wide oddContext "")

end RunReport
