import RunReport.Proofs.Json.Members
import RunReport.Proofs.Section.Layout
import RunReport.Proofs.Template.Filling
import RunReport.Report.Rendering

/-!
# What a template sees

The tree that a template is filled in from has the context of the report, its
texts escaped in LaTeX, and the tables of the format: each table of an accepted
layout under its own key and the table of the runs under the reserved one. Every
path that the standard templates ask for leads to a text in it, whatever texts
the runs carry.
-/

namespace RunReport

namespace Template

/-- A path leads on from the value of its first part. -/
theorem resolve_of_step {j next : Json} {path first : List Char} {rest : List (List Char)}
    (parts : segments path = first :: rest) (led : step first j = some next) :
    resolve j path = rest.foldlM (fun node segment => step segment node) next := by
  rw [resolve, parts, List.foldlM_cons, led]
  rfl

/-- The last part of a path is a step like the others. -/
theorem foldlM_singleton (j : Json) (last : List Char) :
    [last].foldlM (fun node segment => step segment node) j = step last j := bind_pure _

/-- A path leads to the same place when the texts are replaced. -/
theorem step_mapStrings (f : String → String) (segment : List Char) (j : Json) :
    step segment (j.mapStrings f) = (step segment j).map (Json.mapStrings f) := by
  cases j with
  | object members => exact Json.lookup_mapStringsMembers f _ members
  | array items =>
    rw [Json.mapStrings, Json.mapStringsItems_eq_map, step, step]
    cases index? segment with
    | none => rfl
    | some i => simp
  | null | bool b | integer i | decimal x | string s | unreadable => rfl

/-- A path that leads to a text leads to the text in its place when the texts
are replaced. -/
theorem resolve_mapStrings {f : String → String} {j : Json} {path : List Char} {s : String}
    (led : resolve j path = some (.string s)) :
    resolve (j.mapStrings f) path = some (.string (f s)) := by
  have each : ∀ (parts : List (List Char)) (j : Json),
      parts.foldlM (fun node segment => step segment node) (j.mapStrings f) =
        (parts.foldlM (fun node segment => step segment node) j).map (Json.mapStrings f) := by
    intro parts
    induction parts with
    | nil => intro j; rfl
    | cons part rest ih =>
      intro j
      rw [List.foldlM_cons, List.foldlM_cons, step_mapStrings]
      cases step part j with
      | none => rfl
      | some next => exact ih next
  rw [resolve, each, ← resolve, led]
  rfl

end Template

namespace Rendered

variable {format : OutputFormat} {c : Context} {manifest : String}
  {texts : List (SectionPlan × String)}

/-- Every table of distinct keys stands under its key. -/
theorem lookup_tableMembers {plan : SectionPlan} {text : String}
    (accepted : Layout.check (texts.map (·.1)) = .ok ()) (given : (plan, text) ∈ texts) :
    Json.lookup plan.dataRef (tableMembers manifest texts) = some (.string text) := by
  have distinct := Layout.nodup_keys_of_check accepted
  rw [List.map_map] at distinct
  exact Json.lookup_foldl_upsert_of_mem distinct given

/-- The table of the runs stands under the reserved key. -/
theorem lookup_manifest (accepted : Layout.check (texts.map (·.1)) = .ok ()) :
    Json.lookup Layout.manifestKey (tableMembers manifest texts) = some (.string manifest) := by
  have free : Layout.manifestKey ∉ texts.map (·.1.dataRef) := by
    intro taken
    obtain ⟨given, hgiven, same⟩ := List.mem_map.1 taken
    exact (Layout.check_eq_ok_iff.1 accepted).1 given.1 (List.mem_map_of_mem hgiven) same
  refine (Json.lookup_foldl_upsert_of_notMem free).trans ?_
  rw [Json.lookup, if_pos rfl]

/-- The tree is an object: the context with the tables, their join and the name
of the format. -/
theorem exists_tree_eq (format : OutputFormat) (c : Context) (manifest : String)
    (texts : List (SectionPlan × String)) :
    ∃ members, contextTree format c = .object members ∧ tree format c manifest texts =
      .object (Json.upsert "format" (.string format.name) (Json.upsert "tables_all"
        (.string (joinedTables c texts)) (Json.upsert "tables"
          (.object (tableMembers manifest texts)) members))) := by
  cases format <;> exact ⟨_, rfl, rfl⟩

/-- The keys that a format adds to the context. -/
def formatKeys : List String := ["tables", "tables_all", "format"]

/-- Under any other key the tree is the context of the format. -/
theorem step_tree_of_notMem {segment : List Char} (other : String.ofList segment ∉ formatKeys) :
    Template.step segment (tree format c manifest texts) =
      Template.step segment (contextTree format c) := by
  obtain ⟨members, context, extended⟩ := exists_tree_eq format c manifest texts
  simp only [formatKeys, List.mem_cons, List.not_mem_nil, or_false, not_or] at other
  obtain ⟨tables, all, name⟩ := other
  rw [context, extended, Template.step, Template.step, Json.lookup_upsert, if_neg (Ne.symm name),
    Json.lookup_upsert, if_neg (Ne.symm all), Json.lookup_upsert, if_neg (Ne.symm tables)]

/-- Under a key that a format adds stands what it adds. -/
theorem step_tree {key : String} {value : Json}
    (added : Json.lookup key [("format", .string format.name),
      ("tables_all", .string (joinedTables c texts)),
      ("tables", .object (tableMembers manifest texts))] = some value) :
    Template.step key.toList (tree format c manifest texts) = some value := by
  obtain ⟨members, _, extended⟩ := exists_tree_eq format c manifest texts
  rw [extended, Template.step, String.ofList_toList, Json.lookup_upsert, Json.lookup_upsert,
    Json.lookup_upsert]
  rw [Json.lookup, Json.lookup, Json.lookup] at added
  split_ifs at added ⊢
  · exact added
  · exact added
  · exact added
  · cases added

/-- The tables of the tree. -/
theorem step_tree_tables :
    Template.step "tables".toList (tree format c manifest texts) =
      some (.object (tableMembers manifest texts)) := step_tree rfl

/-- The join of the tables of the tree. -/
theorem step_tree_all :
    Template.step "tables_all".toList (tree format c manifest texts) =
      some (.string (joinedTables c texts)) := step_tree rfl

/-- A path to a text of the context leads to a text of the tree. -/
theorem exists_resolve_tree {path first : List Char} {rest : List (List Char)} {s : String}
    (parts : Template.segments path = first :: rest) (other : String.ofList first ∉ formatKeys)
    (led : Template.resolve c.toJson path = some (.string s)) :
    ∃ s, Template.resolve (tree format c manifest texts) path = some (.string s) := by
  have same : Template.resolve (tree format c manifest texts) path =
      Template.resolve (contextTree format c) path := by
    rw [Template.resolve, Template.resolve, parts, List.foldlM_cons, List.foldlM_cons,
      step_tree_of_notMem other]
  rw [same]
  cases format with
  | org | text => exact ⟨s, led⟩
  | latex => exact ⟨Latex.escape s, Template.resolve_mapStrings led⟩

/-- The paths into the context lead to texts. -/
theorem exists_resolve_of_mem_contextPaths :
    ∀ path ∈ Template.contextPaths, ∃ s,
      Template.resolve (tree format c manifest texts) path.toList = some (.string s) := by
  have each : ∀ path ∈ Template.contextPaths, ∃ first rest s,
      Template.segments path.toList = first :: rest ∧ String.ofList first ∉ formatKeys ∧
        Template.resolve c.toJson path.toList = some (.string s) := by
    simp only [Template.contextPaths, List.forall_mem_cons]
    exact ⟨⟨_, _, _, rfl, by decide, rfl⟩, ⟨_, _, _, rfl, by decide, rfl⟩,
      ⟨_, _, _, rfl, by decide, rfl⟩, ⟨_, _, _, rfl, by decide, rfl⟩,
      ⟨_, _, _, rfl, by decide, rfl⟩, ⟨_, _, _, rfl, by decide, rfl⟩,
      ⟨_, _, _, rfl, by decide, rfl⟩, ⟨_, _, _, rfl, by decide, rfl⟩, by simp⟩
  intro path asked
  obtain ⟨first, rest, s, parts, other, led⟩ := each path asked
  exact exists_resolve_tree parts other led

/-- The paths to tables lead to texts if there is a table with the key of the summary. -/
theorem exists_resolve_of_mem_tablePaths {plan : SectionPlan} {text : String}
    (accepted : Layout.check (texts.map (·.1)) = .ok ()) (given : (plan, text) ∈ texts)
    (key : plan.dataRef = "summary") :
    ∀ path ∈ Template.tablePaths, ∃ s,
      Template.resolve (tree format c manifest texts) path.toList = some (.string s) := by
  have list : Template.segments "tables.manifest".toList =
      ["tables".toList, Layout.manifestKey.toList] := rfl
  have summary : Template.segments "tables.summary".toList =
      ["tables".toList, "summary".toList] := rfl
  have all : Template.segments "tables_all".toList = ["tables_all".toList] := rfl
  have below : ∀ name : String, Template.step name.toList (.object (tableMembers manifest texts)) =
      Json.lookup name (tableMembers manifest texts) := by
    intro name
    rw [Template.step, String.ofList_toList]
  have first : Template.resolve (tree format c manifest texts) "tables.manifest".toList =
      some (.string manifest) := by
    rw [Template.resolve_of_step list step_tree_tables, Template.foldlM_singleton, below,
      lookup_manifest accepted]
  have second : Template.resolve (tree format c manifest texts) "tables.summary".toList =
      some (.string text) := by
    rw [Template.resolve_of_step summary step_tree_tables, Template.foldlM_singleton, below, ← key,
      lookup_tableMembers accepted given]
  have third : Template.resolve (tree format c manifest texts) "tables_all".toList =
      some (.string (joinedTables c texts)) := Template.resolve_of_step all step_tree_all
  simp only [Template.tablePaths, List.forall_mem_cons]
  exact ⟨⟨_, first⟩, ⟨_, second⟩, ⟨_, third⟩, by simp⟩

end Rendered

end RunReport
