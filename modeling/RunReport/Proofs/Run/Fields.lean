import Mathlib.Data.List.Zip
import RunReport.Metric.Catalogue
import RunReport.Proofs.Section.Rows
import RunReport.Section.Basic

/-!
# What every run holds

Every run holds a value or a distribution for each metric of a category and for
nothing else, whatever its values, its counts and the grids of its distributions. A
field that reads one of these in its kind, and does not read a percentile, can
therefore be shown for every run. The standard sections show such fields only.
-/

namespace RunReport

/-- What is paired with names is found under each of them and under no other name. -/
theorem exists_find?_iff {α : Type} {members : List (String × α)} {name : String} :
    (∃ a, (members.find? (·.1 = name)).map (·.2) = some a) ↔ name ∈ members.map (·.1) := by
  rw [← Option.isSome_iff_exists, Option.isSome_map, List.find?_isSome]
  simp

/-- A table holds a distribution for each of its names and for no other one. -/
theorem DistributionTable.exists_find?_iff {names : List String} (t : DistributionTable names)
    {name : String} : (∃ d, t.find? name = some d) ↔ name ∈ names := by
  have named : t.named.map (·.1) = names := List.map_fst_zip (Nat.le_of_eq t.complete.symm)
  exact RunReport.exists_find?_iff.trans (by rw [named])

/-- Names of the values of a run as a whole. -/
def summaryMetrics : List String :=
  ["hosts", "log_objects", "slots", "blocks_forged", "tx_submitted", "duration_s", "target_tps"]

/-- Names of the instant values in the table of a category. -/
def Category.values : Category → List String
  | summary => summaryMetrics
  | machinePerformance => []
  | blockPropagation => []

/-- A run has the instant values of a category and no others. -/
theorem Run.exists_instant?_iff (run : Run) {category : Category} {name : String} :
    (∃ x, run.instant? category name = some x) ↔ name ∈ category.values := by
  cases category with
  | summary => exact exists_find?_iff
  | machinePerformance | blockPropagation => simp [Run.instant?, Category.values]

/-- Names of the distributions in the table of a category. -/
def Category.distributions : Category → List String
  | summary => []
  | machinePerformance => machineMetrics
  | blockPropagation => propagationMetrics

/-- A run has the distributions of a category and no others. -/
theorem Run.exists_distribution?_iff (run : Run) {category : Category} {name : String} :
    (∃ d, run.distribution? category name = some d) ↔ name ∈ category.distributions := by
  cases category with
  | summary => simp [Run.distribution?, Category.distributions]
  | machinePerformance => exact run.machines.exists_find?_iff
  | blockPropagation => exact run.propagation.exists_find?_iff

/-- Whether a statistic can be read off a distribution on any grid. -/
def Statistic.onAnyGrid : Statistic → Bool
  | percentile _ => false
  | centrality | spread | low | high | count => true

/-- A statistic other than a percentile is read off every distribution. -/
theorem Distribution.exists_statistic? (d : Distribution Binary64) {shown : Statistic}
    (readable : shown.onAnyGrid = true) : ∃ x, d.statistic? shown = some x := by
  cases shown with
  | percentile p => cases readable
  | centrality | spread | low | high | count => exact ⟨_, rfl⟩

namespace Field

/-- Every run holds what the field shows of a category: a value of the run as a
whole, or a distribution with a statistic that is on any grid. -/
def IsHeld (f : Field) (category : Category) : Prop :=
  match f.kind with
  | .instant => category = .summary ∧ f.name ∈ summaryMetrics
  | .distributional shown => shown.onAnyGrid = true ∧ f.name ∈ category.distributions

instance : (f : Field) → DecidablePred f.IsHeld
  | { kind := .instant, .. } => fun _ => inferInstanceAs (Decidable (_ ∧ _))
  | { kind := .distributional _, .. } => fun _ => inferInstanceAs (Decidable (_ ∧ _))

/-- What every run holds can be shown for each run. -/
theorem IsHeld.exists_shows {f : Field} {category : Category} (held : f.IsHeld category)
    (run : Run) : ∃ text, f.Shows run category text := by
  unfold IsHeld at held
  cases kind : f.kind with
  | instant =>
    rw [kind] at held
    obtain ⟨rfl, listed⟩ := held
    have listed : f.name ∈ Category.summary.values := listed
    obtain ⟨x, hx⟩ := run.exists_instant?_iff.2 listed
    exact ⟨_, .instant kind hx⟩
  | distributional shown =>
    rw [kind] at held
    obtain ⟨readable, listed⟩ := held
    obtain ⟨d, hd⟩ := run.exists_distribution?_iff.2 listed
    obtain ⟨x, hx⟩ := d.exists_statistic? readable
    exact ⟨_, .distributional kind hd hx⟩

end Field

/-- A section whose fields every run holds is built for each run. -/
theorem SectionPlan.exists_build {plan : SectionPlan} {r : Registry}
    (held : ∀ f ∈ plan.fields r, f.IsHeld plan.category) (run : Run) :
    ∃ s, plan.build r run = .ok s :=
  exists_build_iff.2 fun f chosen => (held f chosen).exists_shows run

/-- The fields of the standard sections are held by every run. -/
theorem Layout.isHeld_of_standard : ∀ plan ∈ standardSummary :: standardAnalyses,
    ∀ f ∈ plan.fields Registry.standard, f.IsHeld plan.category := by
  decide +kernel

end RunReport
