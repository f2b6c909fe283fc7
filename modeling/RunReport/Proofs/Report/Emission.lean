import RunReport.Proofs.Metric.ReadBack
import RunReport.Proofs.Report.Rendering
import RunReport.Proofs.Report.Tree

/-!
# Reports made again from what is emitted with them

With a report go the context that its template was filled in from, as JSON text,
and the template. The text is read as the very tree that the template saw, with
its escaped texts and its tables, so filling in the template from what is read
gives the report again.
-/

namespace RunReport

open Json

/-- The numbers in a context fit 64 bits. Wherever they come from they do: decimal
places are given in a byte and widths in two. -/
structure Context.Fits (c : Context) : Prop where
  /-- The decimal places and the width of each field that is shown. -/
  fields : ∀ s ∈ c.summary :: c.analyses, ∀ f ∈ s.fields, f.definition.Fits ∧ f.width < 2 ^ 64
  /-- The decimal places in the dictionary. -/
  dictionary : ∀ entry ∈ c.dictionary.entries, entry.2.Fits
  /-- The decimal places of what is charted. -/
  charts : ∀ entry ∈ c.charts.clusterPerformance ++ c.charts.blockPropagation,
    entry.definition.Fits

/-- The head of a report is faithful. -/
theorem Context.faithful_headJson (h : ReportHead) : (headJson h).Faithful :=
  .object (by simp) (by simp [Faithful.string])

/-- The identity of a run is faithful. -/
theorem RunIdentity.faithful_toJson (r : RunIdentity) : r.toJson.Faithful :=
  .object (by simp) (by simp [Faithful.string])

/-- A field as templates show it is faithful if its numbers fit. -/
theorem FieldDescription.faithful_toJson {f : FieldDescription}
    (fits : f.definition.Fits ∧ f.width < 2 ^ 64) : f.toJson.Faithful :=
  .object (by simp) (by simp [Faithful.string, Faithful.natural fits.1, Faithful.natural fits.2])

/-- A section as templates show it is faithful if the numbers of its fields fit. -/
theorem SectionDescription.faithful_toJson {s : SectionDescription}
    (fits : ∀ f ∈ s.fields, f.definition.Fits ∧ f.width < 2 ^ 64) : s.toJson.Faithful := by
  have fields : Faithful (.array (s.fields.map FieldDescription.toJson)) :=
    .array (List.forall_mem_map.2 fun f shown => FieldDescription.faithful_toJson (fits f shown))
  exact .object (by simp) (by simp [Faithful.string, fields])

/-- Definitions with their keys are faithful if their decimal places fit. -/
theorem DictionaryEntry.faithful_toJson {e : DictionaryEntry} (fits : e.definition.Fits) :
    e.toJson.Faithful :=
  .object (by simp [Definition.members])
    (by simp [Definition.members, Faithful.string, Faithful.natural fits])

/-- A context is faithful if its numbers fit. -/
theorem Context.faithful_toJson {c : Context} (fits : c.Fits) : c.toJson.Faithful := by
  obtain ⟨summary, analyses⟩ := List.forall_mem_cons.1 fits.fields
  obtain ⟨cluster, blocks⟩ := List.forall_mem_append.1 fits.charts
  have runs : Faithful (.array (c.runs.map RunIdentity.toJson)) :=
    .array (List.forall_mem_map.2 fun r _ => r.faithful_toJson)
  have sections : Faithful (.array (c.analyses.map SectionDescription.toJson)) :=
    .array (List.forall_mem_map.2 fun s shown =>
      SectionDescription.faithful_toJson (analyses s shown))
  have charted {entries : List DictionaryEntry} (fit : ∀ e ∈ entries, e.definition.Fits) :
      Faithful (.array (entries.map DictionaryEntry.toJson)) :=
    .array (List.forall_mem_map.2 fun e given => DictionaryEntry.faithful_toJson (fit e given))
  have charts : c.charts.toJson.Faithful :=
    .object (by simp) (by simp [charted cluster, charted blocks])
  exact .object (by simp) (by simp [faithful_headJson, RunIdentity.faithful_toJson, runs, sections,
    SectionDescription.faithful_toJson summary, Dictionary.faithful_toJson fits.dictionary, charts])

namespace Rendered

variable {format : OutputFormat} {c : Context}

/-- Tables by key are faithful. -/
theorem faithful_tableMembers (manifest : String) (texts : List (SectionPlan × String)) :
    Faithful (.object (tableMembers manifest texts)) := by
  have first : Faithful (.object [(Layout.manifestKey, .string manifest)]) :=
    .object (List.nodup_singleton _) (List.forall_mem_singleton.2 (.string _))
  unfold tableMembers
  generalize [(Layout.manifestKey, Json.string manifest)] = members at first
  induction texts generalizing members with
  | nil => exact first
  | cons entry rest ih => exact ih _ (first.set entry.1.dataRef (.string entry.2))

/-- The tree that a template sees is faithful. -/
theorem faithful_tree (format : OutputFormat) (manifest : String)
    (texts : List (SectionPlan × String)) (fits : c.Fits) :
    (tree format c manifest texts).Faithful := by
  have context : (contextTree format c).Faithful := by
    cases format with
    | latex => exact (Context.faithful_toJson fits).mapStrings Latex.escape
    | org | text => exact Context.faithful_toJson fits
  exact ((context.set _ (faithful_tableMembers manifest texts)).set _ (.string _)).set _ (.string _)

/-- The text of a rendered report is its template filled in from the tree that is
emitted with it. -/
theorem filled_of_render {template : String} {sets : List SectionSet} {out : Rendered}
    (rendered : render format template c sets = .ok out) :
    ∃ manifest texts, Template.render template (tree format c manifest texts) = .ok out.text ∧
      out.templateSource = template ∧ out.contextJson = (tree format c manifest texts).pretty := by
  obtain ⟨_, _, rest⟩ := Traversal.bind_eq_ok_iff.1 rendered
  obtain ⟨manifest, _, rest⟩ := Traversal.bind_eq_ok_iff.1 rest
  obtain ⟨texts, _, rest⟩ := Traversal.bind_eq_ok_iff.1 rest
  obtain ⟨text, filled, made⟩ := Traversal.bind_eq_ok_iff.1 rest
  obtain rfl := Except.ok.inj made
  exact ⟨manifest, texts, Traversal.mapError_eq_ok_iff.1 filled, rfl, rfl⟩

/-- A report is made again from what is emitted with it: its context is read from
the text, and its template filled in from what is read is the report. -/
theorem made_again {template : String} {sets : List SectionSet} {out : Rendered} (fits : c.Fits)
    (rendered : render format template c sets = .ok out) :
    ∃ tree, Json.parse out.contextJson = some tree ∧
      Template.render out.templateSource tree.normal = .ok out.text := by
  obtain ⟨manifest, texts, filled, template_eq, emitted⟩ := filled_of_render rendered
  have faithful := faithful_tree format manifest texts fits
  refine ⟨_, emitted ▸ faithful.parse_pretty_eq, ?_⟩
  rwa [faithful.normal_eq, template_eq]

/-- A text of what JSON, LaTeX and templates do not take as it is. -/
def oddText : String := "a\"b\\c_\x7b\x7b d \x7d\x7d\x01\né"

/-- A context with that text. -/
def oddContext : Context :=
  let run : RunIdentity :=
    { tag := oddText, batch := "", profile := "", era := "", timestamp := "", name := "",
      branch := "", revision := "", shortRevision := "", version := "", workload := .valueOnly,
      workloadTitle := "", fileToken := "value-only" }
  let definition : Definition := ⟨"RSS", oddText, "MB", 255, "instant"⟩
  { report := ⟨oddText, "", "", "", "", oddText⟩
    base := run
    runs := [run]
    summary := ⟨"Run", "Metric", "Value", "summary", "summary", [⟨"rss", definition, 65535⟩]⟩
    analyses := []
    dictionary := Dictionary.ofList [(oddText, definition)]
    charts := ⟨[⟨oddText, definition⟩], []⟩ }

/-- Sections with that text, one for each of two runs. -/
def oddSections : SectionSet :=
  let content : Section := ⟨"Run", "Metric", "Value", "odd", "odd", [⟨"rss", oddText, "1", 6⟩]⟩
  { plan := { title := oddText, dataRef := "odd", targetFile := "odd", category := .summary
              selector := .all }
    columns := [⟨oddText, content⟩, ⟨"prev", content⟩] }

/-- A template with that text and three tags. -/
def oddTemplate : String :=
  "\"\\ \x7b\x7b report.tag \x7d\x7d \x7b\x7b summary.fields.0.width \x7d\x7d\n" ++
    "\x7b\x7b tables.odd \x7d\x7d"

/-- A report on texts that JSON, LaTeX and templates do not take as they are is
made again from what is emitted with it. -/
theorem made_again_odd_texts : oddContext.Fits ∧
    ∃ out, render .latex oddTemplate oddContext [oddSections] = .ok out ∧
      ∃ tree, Json.parse out.contextJson = some tree ∧
        Template.render out.templateSource tree.normal = .ok out.text := by
  have fits : oddContext.Fits := ⟨by decide +kernel, by decide +kernel, by decide +kernel⟩
  have succeeds : (render .latex oddTemplate oddContext [oddSections]).isOk = true := by
    decide +kernel
  cases rendered : render .latex oddTemplate oddContext [oddSections] with
  | error failure =>
    rw [rendered] at succeeds
    cases succeeds
  | ok out => exact ⟨fits, out, rfl, made_again fits rendered⟩

end Rendered

end RunReport
