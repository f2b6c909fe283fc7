import RunReport.Proofs.Traversal
import RunReport.Template.Standard
import RunReport.Template.Basic

/-!
# Filling in templates

A template is filled in exactly when each of its pieces is. A tag is filled in by
every text that its path leads to, so a template whose tags are closed and ask for
known paths can be filled in from every context in which these paths lead to
texts. The standard templates ask for a few paths only.
-/

namespace RunReport.Template

variable {context : Json}

/-- Pieces are filled in one after the other exactly when each of them is. -/
theorem exists_fillAll_iff {pieces : List Piece} :
    (∃ text, fillAll context pieces = .ok text) ↔
      ∀ piece ∈ pieces, ∃ text, fill context piece = .ok text := by
  induction pieces with
  | nil => simp [fillAll]
  | cons piece rest ih =>
    rw [List.forall_mem_cons, ← ih]
    simp only [fillAll, Traversal.bind_eq_ok_iff]
    constructor
    · rintro ⟨_, text, first, others, later, _⟩
      exact ⟨⟨text, first⟩, others, later⟩
    · rintro ⟨⟨text, first⟩, others, later⟩
      exact ⟨_, text, first, others, later, rfl⟩

/-- A template is filled in exactly when each of its pieces is. -/
theorem exists_render_iff {source : String} :
    (∃ text, render source context = .ok text) ↔
      ∀ piece ∈ pieces source, ∃ text, fill context piece = .ok text := by
  rw [← exists_fillAll_iff]
  simp only [render, Traversal.map_eq_ok_iff]
  constructor
  · rintro ⟨_, text, filled, _⟩
    exact ⟨text, filled⟩
  · rintro ⟨text, filled⟩
    exact ⟨_, text, filled, rfl⟩

/-- The piece is literal text, or a closed tag with one of the given paths. -/
def Piece.AsksFor (paths : List (List Char)) : Piece → Prop
  | literal _ => True
  | tag _ body => Text.trim body ∈ paths
  | unterminated _ => False

instance (paths : List (List Char)) : DecidablePred (Piece.AsksFor paths)
  | .literal _ => .isTrue trivial
  | .tag _ _ => inferInstanceAs (Decidable (_ ∈ _))
  | .unterminated _ => .isFalse id

/-- A tag is filled in by the text that its path leads to. -/
theorem exists_fill_of_asksFor {paths : List (List Char)} {piece : Piece}
    (asks : piece.AsksFor paths)
    (led : ∀ path ∈ paths, path ≠ [] ∧ ∃ s, resolve context path = some (.string s)) :
    ∃ text, fill context piece = .ok text := by
  cases piece with
  | literal text => exact ⟨text, rfl⟩
  | tag start body =>
    obtain ⟨nonempty, s, leads⟩ := led _ asks
    refine ⟨s.toList, ?_⟩
    simp [fill, nonempty, leads, scalarText]
  | unterminated start => cases asks

/-- The paths into the context of a report that the standard templates ask for. -/
def contextPaths : List String :=
  ["report.title", "report.author", "report.date", "report.tag", "report.target",
    "report.tool_version", "base.name", "base.workload_title"]

/-- The paths to tables that the standard templates ask for. -/
def tablePaths : List String := ["tables.manifest", "tables.summary", "tables_all"]

/-- The paths that the standard templates ask for. -/
def standardPaths : List String := contextPaths ++ tablePaths

/-- Lines of text, character by character. -/
theorem toList_lines (ls : List String) :
    (lines ls).toList = ls.flatMap fun line => line.toList ++ ['\n'] := by
  induction ls with
  | nil => rfl
  | cons line ls ih =>
    simp only [lines, List.map_cons, String.join_cons, String.toList_append,
      List.flatMap_cons] at ih ⊢
    rw [ih]
    rfl

/-- The standard templates ask for these paths only, and all of their tags are closed. -/
theorem asksFor_of_standard (format : OutputFormat) :
    ∀ piece ∈ pieces (standard.get format), piece.AsksFor (standardPaths.map String.toList) := by
  cases format
  all_goals
    simp only [pieces, PerFormat.get, standard, standardOrg, standardLatex, standardText,
      toList_lines, tagText, standardPaths, contextPaths, tablePaths, List.map_append,
      List.map_cons, List.map_nil, List.flatMap_cons, List.flatMap_nil, String.toList_append,
      String.reduceToList]
    decide +kernel

/-- A standard template is filled in from every context in which the paths that
it asks for lead to texts. -/
theorem exists_render_standard
    (led : ∀ path ∈ standardPaths, ∃ s, resolve context path.toList = some (.string s))
    (format : OutputFormat) : ∃ text, render (standard.get format) context = .ok text := by
  have nonempty : ∀ path ∈ standardPaths, path.toList ≠ [] := by decide +kernel
  refine exists_render_iff.2 fun piece given => ?_
  refine exists_fill_of_asksFor (asksFor_of_standard format piece given) ?_
  refine List.forall_mem_map.2 fun path asked => ⟨nonempty path asked, led path asked⟩

end RunReport.Template
