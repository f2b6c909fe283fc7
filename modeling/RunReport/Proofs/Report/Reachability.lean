import RunReport.Proofs.Report.Tables
import RunReport.Proofs.Table.Latex
import RunReport.Proofs.Template.Keys

/-!
# Tables that a template can ask for

The tree that a template is filled in from has the table of each section under the key
of the section. A tag reaches it only through a path, though, and not every key of an
accepted layout can end a path. Where the tables can be filled, the tag for the table of a
section is filled in with that table in every format exactly when the key of the section can
end a path. Whatever else the tag may be filled in with, in LaTeX a table shows its own key.
-/

namespace RunReport

namespace Table

open Latex

/-- If a table in LaTeX begins with another one, the two have the same key. -/
theorem dataRef_eq_of_latex_append {t u : Table} {x y : List Char}
    (h : t.latex.toList ++ x = u.latex.toList ++ y) : t.dataRef = u.dataRef := by
  simp only [toList_latex, List.append_assoc] at h
  obtain ⟨_, h⟩ := escapeChars_append_inj rfl rfl (List.append_cancel_left h)
  obtain ⟨key, _⟩ := escapeChars_append_inj rfl rfl (List.append_cancel_left h)
  exact String.toList_inj.1 key

end Table

/-- The table of a section has the key of the section. -/
theorem SectionSet.HasTable.dataRef_eq {set : SectionSet} {entry : SectionPlan × Table}
    (h : set.HasTable entry) : entry.2.dataRef = entry.1.dataRef := by
  obtain ⟨first, others, _, made⟩ := Table.exists_ofAligned_of_transpose h.turned
  rw [made, h.plan_eq]
  rfl

namespace Rendered

open Template Search

variable {format : OutputFormat} {c : Context} {sets : List SectionSet}
  {entries : List (SectionPlan × Table)}

/-- The tag for the table under a key. -/
def tableTag (key : String) : String := tagText ("tables." ++ key)

/-- The tag for the table of a section is filled in with it: the template that is made of
this tag gives exactly the text of the table, as it is in the section's own file. -/
def Reaches (format : OutputFormat) (c : Context) (sets : List SectionSet)
    (entry : SectionPlan × Table) : Prop :=
  ∃ report, render format (tableTag entry.1.dataRef) c sets = .ok report ∧
    report.text = format.table entry.2 ∧
    ⟨entry.1.targetFile ++ "." ++ format.extension, report.text⟩ ∈ report.tables

/-- What a tag holds in front of the key of a table. -/
def tablesFront : List Char := " tables.".toList

/-- A path to the tables leads on from them. -/
theorem resolve_tables (format : OutputFormat) (c : Context) (manifest : String)
    (texts : List (SectionPlan × String)) (key : List Char) :
    resolve (tree format c manifest texts) ("tables".toList ++ '.' :: key) =
      resolve (.object (tableMembers manifest texts)) key :=
  resolve_of_step rfl step_tree_tables

/-- The tag for a table is trimmed at the end of the key. -/
theorem trim_tablesFront (body : List Char) :
    Text.trim (tablesFront ++ body) = "tables".toList ++ '.' :: Text.trimEnd body := by
  have start : Text.trimStart (tablesFront ++ body) = "tables".toList ++ '.' :: body := rfl
  rw [Text.trim, start, Text.trimEnd_append_cons (by decide)]

/-- What stands behind the opening mark of the tag for a table. -/
def tableTail (key : String) : List Char := tablesFront ++ key.toList ++ ' ' :: closing

/-- The tag for a table as it is written. -/
theorem toList_tableTag (key : String) : (tableTag key).toList = opening ++ tableTail key := by
  rw [tableTag, toList_tagText, String.toList_append]
  rfl

/-- The tag for a table ends behind the key, or at the first closing mark in it. -/
theorem exists_closes_tableTail (key : String) : ∃ body later,
    Leftmost closing (tableTail key) (tablesFront ++ body) later ∧
      (¬ closing <:+: key.toList ∧ body = key.toList ++ [' '] ∧ later = [] ∨
        ∃ rest, key.toList = body ++ closing ++ rest) := by
  have unclosed : ¬ closing <:+: tablesFront := fun within =>
    absurd (within.subset (List.mem_cons_self : '\x7d' ∈ closing)) (by decide +kernel)
  exact exists_closes unclosed (by decide +kernel) key.toList

section Tabulated

variable (accepted : Layout.check (sets.map (·.plan)) = .ok ())
  (each : List.Forall₂ SectionSet.HasTable sets entries)

include accepted each

/-- The layout of the tables is that of the sections. -/
theorem check_of_tables : Layout.check (entries.map (·.1)) = .ok () :=
  map_plan_of_tables each ▸ accepted

/-- What a tag for a table leads to is a table with the key that it asks for. -/
theorem exists_table_of_lookup {key : String} {j : Json}
    (found : Json.lookup key
      (tableMembers (format.table c.manifest) (textsOf format entries)) = some j) :
    ∃ t : Table, t.dataRef = key ∧ j = .string (format.table t) := by
  rw [tableMembers_textsOf format _ (check_of_tables accepted each)] at found
  rcases List.mem_cons.1 (Json.mem_of_lookup found) with same | among
  · obtain ⟨rfl, rfl⟩ := Prod.mk.inj same
    exact ⟨c.manifest, rfl, rfl⟩
  · obtain ⟨entry, given, same⟩ := List.mem_map.1 among
    obtain ⟨rfl, rfl⟩ := Prod.mk.inj same
    obtain ⟨set, _, has⟩ := Traversal.exists_of_mem_right each given
    exact ⟨entry.2, has.dataRef_eq, rfl⟩

/-- A path to a table leads to the table with the key that it ends in, if the key has no
point. -/
theorem leadsTo_tables_iff {key : List Char} {j : Json} :
    LeadsTo (treeOf format c entries) ("tables".toList ++ '.' :: key) j ↔
      '.' ∉ key ∧ Json.lookup (String.ofList key)
        (tableMembers (format.table c.manifest) (textsOf format entries)) = some j := by
  have texts (key : String) (j : Json)
      (found : Json.lookup key
        (tableMembers (format.table c.manifest) (textsOf format entries)) = some j) :
      ∃ s, j = .string s := by
    obtain ⟨t, _, rfl⟩ := exists_table_of_lookup accepted each found
    exact ⟨_, rfl⟩
  rw [← resolve_eq_some_iff, treeOf, resolve_tables, resolve_eq_some_iff,
    leadsTo_iff_of_texts texts]

/-- A tag for a table is filled in with the table whose key is left when the tag is trimmed. -/
theorem fill_tables_eq_ok_iff {start : Nat} {body text : List Char} :
    fill (treeOf format c entries) (.tag start (tablesFront ++ body)) = .ok text ↔
      '.' ∉ Text.trimEnd body ∧ ∃ t : Table, Json.lookup (String.ofList (Text.trimEnd body))
        (tableMembers (format.table c.manifest) (textsOf format entries)) =
          some (.string (format.table t)) ∧ t.dataRef = String.ofList (Text.trimEnd body) ∧
            text = (format.table t).toList := by
  rw [fill_tag_eq_ok_iff]
  constructor
  · rintro ⟨_, j, led, shown⟩
    rw [trim_tablesFront, leadsTo_tables_iff accepted each] at led
    obtain ⟨undivided, found⟩ := led
    obtain ⟨t, key, rfl⟩ := exists_table_of_lookup accepted each found
    cases shown
    exact ⟨undivided, t, found, key, rfl⟩
  · rintro ⟨undivided, t, found, _, rfl⟩
    have path := trim_tablesFront body
    refine ⟨by simp [path], .string (format.table t), ?_, .string _⟩
    rw [path, leadsTo_tables_iff accepted each]
    exact ⟨undivided, found⟩

/-- The tag for a key with a point is refused where the tables can be filled: its path leads
through the key part by part, and nothing is within a table. -/
theorem refused_of_divided (fillable : Fillable format c entries) {key : String}
    (divided : '.' ∈ key.toList) (unclosed : ¬ closing <:+: key.toList) :
    render format (tableTag key) c sets = .error (.refused (.templateError format.name
      (Fault.missing ("tables." ++ String.ofList (Text.trimEnd key.toList))).message)) := by
  obtain ⟨body, later, closes, ⟨_, rfl, rfl⟩ | ⟨rest, closed⟩⟩ := exists_closes_tableTail key
  · have path : Text.trim (tablesFront ++ (key.toList ++ [' '])) =
        "tables".toList ++ '.' :: Text.trimEnd key.toList := by
      rw [trim_tablesFront, Text.trimEnd_append_space]
    have named : String.ofList ("tables".toList ++ '.' :: Text.trimEnd key.toList) =
        "tables." ++ String.ofList (Text.trimEnd key.toList) := by
      have whole : "tables".toList ++ '.' :: Text.trimEnd key.toList =
          "tables.".toList ++ Text.trimEnd key.toList := rfl
      rw [whole, String.ofList_append, String.ofList_toList]
    have offends : Offends (treeOf format c entries) 0 (tableTail key)
        (.missing (String.ofList (Text.trim (tablesFront ++ (key.toList ++ [' ']))))) := by
      refine .missing closes (by simp [path]) fun j led => ?_
      rw [path, leadsTo_tables_iff accepted each] at led
      exact led.1 ((Text.mem_trimEnd_iff (by decide)).2 divided)
    rw [render_of_fillable accepted each fillable,
      render_of_offends (toList_tableTag key) offends, path, named]
  · exact absurd ⟨body, rest, closed.symm⟩ unclosed

variable {entry : SectionPlan × Table} (given : entry ∈ entries)

include given

/-- A section is reached when the tables can be filled and its tag, as a template, is filled
in with its table. -/
theorem reaches_iff_render : Reaches format c sets entry ↔ Fillable format c entries ∧
    Template.render (tableTag entry.1.dataRef) (treeOf format c entries) =
      .ok (format.table entry.2) := by
  simp only [Reaches, render_eq_ok_iff_of_tables accepted each]
  constructor
  · rintro ⟨_, ⟨fillable, text, filled, rfl⟩, same, _⟩
    exact ⟨fillable, filled.trans (congrArg _ same)⟩
  · rintro ⟨fillable, filled⟩
    exact ⟨_, ⟨fillable, _, filled, rfl⟩, rfl, List.mem_map.2 ⟨entry, given, rfl⟩⟩

/-- A key that can end a path reaches its section where the tables can be filled. -/
theorem reaches_of_endsPath (fillable : Fillable format c entries)
    (key : EndsPath entry.1.dataRef.toList) : Reaches format c sets entry := by
  have listed : Layout.check ((textsOf format entries).map (·.1)) = .ok () :=
    (map_plan_textsOf format entries).symm ▸ check_of_tables accepted each
  obtain ⟨body, later, closes, ends⟩ := exists_closes_tableTail entry.1.dataRef
  refine (reaches_iff_render accepted each given).2 ⟨fillable, ?_⟩
  rw [render_of_opening (toList_tableTag _) closes]
  rcases ends with ⟨_, rfl, rfl⟩ | ⟨rest, closed⟩
  · have trimmed : Text.trimEnd (entry.1.dataRef.toList ++ [' ']) = entry.1.dataRef.toList := by
      rw [Text.trimEnd_append_space, Text.trimEnd_eq_self_iff.2 key.kept]
    have found : Json.lookup entry.1.dataRef
        (tableMembers (format.table c.manifest) (textsOf format entries)) =
          some (.string (format.table entry.2)) :=
      lookup_tableMembers listed (List.mem_map_of_mem given)
    obtain ⟨set, _, has⟩ := Traversal.exists_of_mem_right each given
    have inserted : fill (treeOf format c entries)
        (.tag 0 (tablesFront ++ (entry.1.dataRef.toList ++ [' ']))) =
          .ok (format.table entry.2).toList := by
      refine (fill_tables_eq_ok_iff accepted each).2 ?_
      rw [trimmed, String.ofList_toList]
      exact ⟨key.undivided, entry.2, found, has.dataRef_eq, rfl⟩
    exact ⟨_, [], inserted, fillFrom_of_plain (by simp [opening]), (List.append_nil _).symm⟩
  · exact absurd ⟨body, rest, closed.symm⟩ key.unclosed

/-- A key that reaches its section in LaTeX can end a path: the table shows the key that the
tag asks for, which is what is left of the key. -/
theorem endsPath_of_reaches (reached : Reaches .latex c sets entry) :
    EndsPath entry.1.dataRef.toList := by
  obtain ⟨set, _, has⟩ := Traversal.exists_of_mem_right each given
  obtain ⟨body, later, closes, ends⟩ := exists_closes_tableTail entry.1.dataRef
  have shown := ((reaches_iff_render accepted each given).1 reached).2
  rw [render_of_opening (toList_tableTag _) closes] at shown
  obtain ⟨text, others, first, _, whole⟩ := shown
  obtain ⟨undivided, t, _, key, inserted⟩ := (fill_tables_eq_ok_iff accepted each).1 first
  rw [inserted] at whole
  have begins : entry.2.latex.toList ++ [] = t.latex.toList ++ others :=
    (List.append_nil _).trans whole
  have asked : entry.1.dataRef.toList = Text.trimEnd body := by
    rw [← has.dataRef_eq, Table.dataRef_eq_of_latex_append begins, key, String.toList_ofList]
  rcases ends with ⟨unclosed, rfl, _⟩ | ⟨rest, closed⟩
  · rw [Text.trimEnd_append_space] at asked undivided
    exact ⟨asked ▸ undivided, unclosed, Text.trimEnd_eq_self_iff.1 asked.symm⟩
  · have shorter := (Text.trimEnd_begins body).length_le
    have whole := congrArg List.length closed
    rw [← asked] at shorter
    simp only [List.length_append, closing, List.length_cons] at whole
    omega

end Tabulated

/-- The tag for the table of a section of an accepted layout is filled in with that table in
every format exactly when the key of the section can end a path and every table can be filled.
With such a key the tag is filled in with the table in each format in which the tables can
be filled. There a tag for a key that is parted by a point is refused, whether or not a
section has the key. -/
theorem reaches_iff_endsPath (c : Context) (sets : List SectionSet)
    (entries : List (SectionPlan × Table))
    (accepted : Layout.check (sets.map (·.plan)) = .ok ())
    (each : List.Forall₂ SectionSet.HasTable sets entries) :
    (∀ entry ∈ entries, ((∀ format, Reaches format c sets entry) ↔
      EndsPath entry.1.dataRef.toList ∧ ∀ format, Fillable format c entries) ∧
      (EndsPath entry.1.dataRef.toList → ∀ format,
        Reaches format c sets entry ↔ Fillable format c entries)) ∧
    ∀ (format : OutputFormat) (key : String), '.' ∈ key.toList → ¬ closing <:+: key.toList →
      Fillable format c entries →
      render format (tableTag key) c sets = .error (.refused (.templateError format.name
        (Fault.missing ("tables." ++ String.ofList (Text.trimEnd key.toList))).message)) := by
  have fillable {entry} (given : entry ∈ entries) {format} (reached : Reaches format c sets entry) :
      Fillable format c entries := ((reaches_iff_render accepted each given).1 reached).1
  refine ⟨fun entry given => ⟨⟨fun reached => ?_, ?_⟩, fun key format => ?_⟩,
    fun format key divided unclosed room => refused_of_divided accepted each room divided unclosed⟩
  · exact ⟨endsPath_of_reaches accepted each given (reached .latex),
      fun format => fillable given (reached format)⟩
  · rintro ⟨key, room⟩ format
    exact reaches_of_endsPath accepted each given (room format) key
  · exact ⟨fillable given, fun room => reaches_of_endsPath accepted each given room key⟩

/-- The sections with odd texts under a key that is parted by a point. -/
def dottedSections : SectionSet :=
  { oddSections with plan := SectionPlan.ofKey "Forging" "perf.forging" .machinePerformance .all }

/-- Of a summary and a section whose key is parted by a point, the tag for the summary is
filled in with its table in every format, and the tag for the other one is refused. -/
theorem reaches_summary_only :
    Layout.check ([oddSummary, dottedSections].map (·.plan)) = .ok () ∧
    ∃ t u, List.Forall₂ SectionSet.HasTable [oddSummary, dottedSections]
        [(oddSummary.plan, t), (dottedSections.plan, u)] ∧
      (∀ format, Reaches format oddContext [oddSummary, dottedSections] (oddSummary.plan, t)) ∧
      (¬ ∀ format, Reaches format oddContext [oddSummary, dottedSections]
        (dottedSections.plan, u)) ∧
      ∀ format, render format (tableTag "perf.forging") oddContext [oddSummary, dottedSections] =
        .error (.refused (.templateError format.name
          (Fault.missing ("tables." ++
            String.ofList (Text.trimEnd "perf.forging".toList))).message)) := by
  have accepted : Layout.check ([oddSummary, dottedSections].map (·.plan)) = .ok () := rfl
  obtain ⟨t, u, each, room⟩ : ∃ t u, List.Forall₂ SectionSet.HasTable [oddSummary, dottedSections]
      [(oddSummary.plan, t), (dottedSections.plan, u)] ∧ ∀ format, Fillable format oddContext
        [(oddSummary.plan, t), (dottedSections.plan, u)] := by
    refine ⟨_, _, .cons ⟨rfl, rfl⟩ (.cons ⟨rfl, rfl⟩ .nil), fun format => ?_⟩
    cases format <;> decide +kernel
  obtain ⟨reached, refused⟩ := reaches_iff_endsPath oddContext _ _ accepted each
  obtain ⟨summary, others⟩ := List.forall_mem_cons.1 reached
  obtain ⟨dotted, _⟩ := List.forall_mem_singleton.1 others
  have able : EndsPath oddSummary.plan.dataRef.toList := by decide +kernel
  have unable : ¬ EndsPath dottedSections.plan.dataRef.toList := by decide +kernel
  have divided : '.' ∈ "perf.forging".toList := by decide +kernel
  have unclosed : ¬ closing <:+: "perf.forging".toList := fun within =>
    absurd (within.subset (List.mem_cons_self : '\x7d' ∈ closing)) (by decide +kernel)
  exact ⟨accepted, t, u, each, summary.1.2 ⟨able, room⟩, fun all => unable (dotted.1 all).1,
    fun format => refused format _ divided unclosed (room format)⟩

/-- A section whose key is parted by a point has an accepted layout and a table, but its tag
is refused in every format: its path leads through the key part by part. -/
theorem dotted_key_missing :
    Layout.check ([dottedSections].map (·.plan)) = .ok () ∧
    (∃ t, dottedSections.HasTable (dottedSections.plan, t)) ∧
    ∀ format, render format (tableTag dottedSections.plan.dataRef) oddContext [dottedSections] =
      .error (.refused
        (.templateError format.name "missing variable 'tables.perf.forging'")) := by
  refine ⟨rfl, ⟨_, rfl, rfl⟩, fun format => ?_⟩
  cases format <;> decide +kernel

end Rendered

end RunReport
