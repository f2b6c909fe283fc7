import RunReport.Proofs.Report.Tables

/-!
# Texts that are escaped once

In LaTeX the texts of the context are escaped before the tables are added, and the
tables are made of texts that are not escaped yet. So the tree of the format is the
one of Org with each of its texts escaped once, up to the tables and the name of the
format, and its tables are written from the very data that those of Org are written
from. The tree of Org is missing only where a table is too wide for a cell of Org text.
-/

namespace RunReport

namespace Json

/-- One value is another with its texts replaced, at any depth: keys, their order, the
lengths of arrays, numbers and everything else are the same. -/
inductive Replaces (f : String → String) : Json → Json → Prop where
  | null : Replaces f .null .null
  | bool (b : Bool) : Replaces f (.bool b) (.bool b)
  | integer (i : Int) : Replaces f (.integer i) (.integer i)
  | decimal (x : Binary64) : Replaces f (.decimal x) (.decimal x)
  /-- A text is replaced. -/
  | string (s : String) : Replaces f (.string s) (.string (f s))
  /-- An array has as many items, and each is replaced where it stands. -/
  | array {items replaced : List Json} (length : replaced.length = items.length)
    (each : ∀ (i : Nat) j k, items[i]? = some j → replaced[i]? = some k → Replaces f j k) :
    Replaces f (.array items) (.array replaced)
  /-- An object has the same keys in the same order, and each member is replaced where
  it stands. -/
  | object {members replaced : List (String × Json)}
    (keys : replaced.map (·.1) = members.map (·.1))
    (each : ∀ (i : Nat) m n, members[i]? = some m → replaced[i]? = some n → Replaces f m.2 n.2) :
    Replaces f (.object members) (.object replaced)
  | unreadable : Replaces f .unreadable .unreadable

/-- Replacing the texts of a value replaces them. -/
theorem replaces_mapStrings (f : String → String) : ∀ j : Json, Replaces f j (j.mapStrings f)
  | .null => .null
  | .bool b => .bool b
  | .integer i => .integer i
  | .decimal x => .decimal x
  | .string s => .string s
  | .unreadable => .unreadable
  | .array items => by
    rw [mapStrings, mapStringsItems_eq_map]
    refine .array (List.length_map _) fun i j k there found => ?_
    rw [List.getElem?_map, there] at found
    obtain rfl := Option.some.inj found
    have smaller := List.sizeOf_lt_of_mem (List.mem_of_getElem? there)
    exact replaces_mapStrings f j
  | .object members => by
    rw [mapStrings, mapStringsMembers_eq_map]
    refine .object (by rw [List.map_map]; rfl) fun i m n there found => ?_
    obtain ⟨key, j⟩ := m
    rw [List.getElem?_map, there] at found
    obtain rfl := Option.some.inj found
    have smaller : sizeOf j < sizeOf members := by
      have below := List.sizeOf_lt_of_mem (List.mem_of_getElem? there)
      rw [Prod.mk.sizeOf_spec] at below
      omega
    exact replaces_mapStrings f j

/-- An object without the members of the given keys; other values stay as they are. -/
def without (keys : List String) : Json → Json
  | .object members => .object (members.filter fun member => member.1 ∉ keys)
  | j => j

/-- What is set under a key that is left out does not matter. -/
theorem without_set {keys : List String} {key : String} (given : key ∈ keys) (j v : Json) :
    (j.set key v).without keys = j.without keys := by
  have same (members : List (String × Json)) :
      (upsert key v members).filter (fun member => member.1 ∉ keys) =
        members.filter fun member => member.1 ∉ keys := by
    induction members with
    | nil => simp [upsert, given]
    | cons member rest ih =>
      obtain ⟨k, w⟩ := member
      rw [upsert]
      by_cases here : k = key
      · rw [if_pos here, List.filter_cons_of_neg (by simp [here, given]),
          List.filter_cons_of_neg (by simp [here, given])]
      · rw [if_neg here, List.filter_cons, List.filter_cons, ih]
  cases j with
  | object members => rw [set, without, without, same]
  | null | bool | integer | decimal | string | array | unreadable => rfl

/-- Members are left out by their keys, whatever their texts. -/
theorem without_mapStrings (keys : List String) (f : String → String) (j : Json) :
    (j.mapStrings f).without keys = (j.without keys).mapStrings f := by
  cases j with
  | object members =>
    rw [mapStrings, mapStringsMembers_eq_map, without, without, mapStrings,
      mapStringsMembers_eq_map, List.filter_map]
    rfl
  | null | bool | integer | decimal | string | array | unreadable => rfl

end Json

namespace Rendered

/-- Up to the tables and the name of the format, the tree is the context of the format. -/
theorem without_treeOf (format : OutputFormat) (c : Context)
    (entries : List (SectionPlan × Table)) :
    (treeOf format c entries).without formatKeys = contextTree format c := by
  have context : c.toJson.without formatKeys = c.toJson := by
    simp [Context.toJson, Json.without, formatKeys]
  rw [treeOf, tree, Json.without_set (by decide), Json.without_set (by decide),
    Json.without_set (by decide)]
  cases format with
  | org | text => exact context
  | latex => rw [contextTree, Json.without_mapStrings, context]

/-- The tree of LaTeX has each text of the context escaped, and its tables are written from
those of the runs and of the sections. -/
structure EscapesContext (c : Context) (entries : List (SectionPlan × Table)) (latex : Json) :
    Prop where
  /-- Up to the tables and the name of the format, the tree is the context with each text
  escaped in its place. -/
  escaped : Json.Replaces Latex.escape c.toJson (latex.without formatKeys)
  /-- The tables are not written from escaped ones. -/
  tables : latex.get? "tables" = some (.object
    ((Layout.manifestKey, .string (Table.latex c.manifest)) ::
      entries.map fun entry => (entry.1.dataRef, .string (Table.latex entry.2))))

/-- The tree of LaTeX is that of Org with the texts of the context escaped, and the tables
of both are written from the same tables. -/
structure EscapesOnce (c : Context) (entries : List (SectionPlan × Table)) (org latex : Json) :
    Prop where
  /-- Up to the tables and the name of the format, the tree of Org is the context. -/
  plain : org.without formatKeys = c.toJson
  /-- Up to these, the tree of LaTeX is that of Org with each text escaped in its place. -/
  escaped : Json.Replaces Latex.escape (org.without formatKeys) (latex.without formatKeys)
  /-- The tables of Org are written from those of the runs and of the sections. -/
  orgTables : org.get? "tables" = some (.object
    ((Layout.manifestKey, .string (Table.org c.manifest)) ::
      entries.map fun entry => (entry.1.dataRef, .string (Table.org entry.2))))
  /-- The tables of LaTeX are written from the same tables, not from escaped ones. -/
  latexTables : latex.get? "tables" = some (.object
    ((Layout.manifestKey, .string (Table.latex c.manifest)) ::
      entries.map fun entry => (entry.1.dataRef, .string (Table.latex entry.2))))

section Trees

variable {c : Context} {entries : List (SectionPlan × Table)}
  (accepted : Layout.check (entries.map (·.1)) = .ok ())

include accepted

/-- The tree of LaTeX has the texts of the context escaped. -/
theorem escapesContext_treeOf : EscapesContext c entries (treeOf .latex c entries) where
  escaped := by
    rw [without_treeOf]
    exact Json.replaces_mapStrings Latex.escape c.toJson
  tables := (keepsTables_treeOf .latex c accepted).tables

/-- The trees of Org and of LaTeX differ by what escapes the texts of the context. -/
theorem escapesOnce_treeOf :
    EscapesOnce c entries (treeOf .org c entries) (treeOf .latex c entries) where
  plain := without_treeOf .org c entries
  escaped := by
    rw [without_treeOf .org]
    exact (escapesContext_treeOf accepted).escaped
  orgTables := (keepsTables_treeOf .org c accepted).tables
  latexTables := (escapesContext_treeOf accepted).tables

end Trees

/-- Texts are escaped once, and only those of the context. For sections of an accepted
layout that can be turned into tables, the tree of LaTeX is the context with each text
replaced by what it is escaped to, up to the tables, their join and the name of the format,
and its tables are written from those of the runs and of the sections, whose texts are not
escaped before. If Org text has room for these tables, the tree of LaTeX is in this way that
of Org. If it has none, the program ends in Org text, whatever the template. -/
theorem escapes_once (c : Context) (sets : List SectionSet)
    (accepted : Layout.check (sets.map (·.plan)) = .ok ())
    (transposable : ∀ set ∈ sets, ∃ t, Table.transpose set = .ok t) :
    ∃ entries latex latexFiles, List.Forall₂ SectionSet.HasTable sets entries ∧
      RendersFrom .latex c sets latex latexFiles ∧ EscapesContext c entries latex ∧
      (Fillable .org c entries → ∃ org orgFiles, RendersFrom .org c sets org orgFiles ∧
        EscapesOnce c entries org latex) ∧
      (¬ Fillable .org c entries → ∀ template,
        render .org template c sets = .error .crashed) := by
  obtain ⟨entries, each⟩ := SectionSet.exists_tables transposable
  have listed : Layout.check (entries.map (·.1)) = .ok () := map_plan_of_tables each ▸ accepted
  refine ⟨entries, _, _, each, rendersFrom_treeOf accepted each (fillable_latex c entries),
    escapesContext_treeOf listed, fun fillable => ?_, fun wide template => ?_⟩
  · exact ⟨_, _, rendersFrom_treeOf accepted each fillable, escapesOnce_treeOf listed⟩
  · exact render_of_not_fillable accepted each wide

/-- Texts that LaTeX does not take as they are, in a context and in two sections, are
escaped once. -/
theorem escapes_odd_texts_once :
    Layout.check ([oddSummary, oddSections].map (·.plan)) = .ok () ∧
    (∀ set ∈ [oddSummary, oddSections], ∃ t, Table.transpose set = .ok t) ∧
    ∃ entries latex latexFiles,
      List.Forall₂ SectionSet.HasTable [oddSummary, oddSections] entries ∧
      RendersFrom .latex oddContext [oddSummary, oddSections] latex latexFiles ∧
      EscapesContext oddContext entries latex ∧ Fillable .org oddContext entries ∧
      ∃ org orgFiles, RendersFrom .org oddContext [oddSummary, oddSections] org orgFiles ∧
        EscapesOnce oddContext entries org latex := by
  obtain ⟨accepted, transposable⟩ := odd_suit
  obtain ⟨entries, latex, files, each, made, context, once, _⟩ :=
    escapes_once oddContext _ accepted transposable
  obtain rfl := SectionSet.tables_unique each hasTable_odd
  exact ⟨accepted, transposable, oddEntries, latex, files, each, made, context,
    fillable_odd .org, once (fillable_odd .org)⟩

/-- Sections of an accepted layout that have a table and a tree in LaTeX, and yet there is no
tree of Org with its texts to compare. -/
theorem escapes_nothing_of_wide :
    Layout.check ([wideSections].map (·.plan)) = .ok () ∧
    (∀ set ∈ [wideSections], ∃ t, Table.transpose set = .ok t) ∧
    ∃ latex latexFiles, RendersFrom .latex oddContext [wideSections] latex latexFiles ∧
      ¬ ∃ entries org orgFiles, RendersFrom .org oddContext [wideSections] org orgFiles ∧
        EscapesOnce oddContext entries org latex := by
  obtain ⟨accepted, transposable⟩ := wide_suit
  obtain ⟨entries, each⟩ := SectionSet.exists_tables transposable
  refine ⟨accepted, transposable, _, _,
    rendersFrom_treeOf accepted each (fillable_latex oddContext entries), ?_⟩
  rintro ⟨_, org, files, made, _⟩
  exact made.ne_crashed "" (render_wide oddContext "")

end Rendered

end RunReport
