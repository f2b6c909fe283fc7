import RunReport.Proofs.Distribution.FoldOutcome
import RunReport.Proofs.Run.Fields

/-!
# When a section can be built

A field resolves when the table of the section's category holds it in its kind, a
percentile besides having to be on the grid of the distribution. A section is built
exactly when all of its fields resolve. Otherwise it is refused for the first one in
declaration order that does not: as unknown when the table does not hold it, and for the
grid when only the percentile is missing.
-/

namespace RunReport

namespace Field

/-- The run's table of the category holds what the field shows. -/
inductive Resolves (f : Field) (run : Run) (category : Category) : Prop
  /-- The value of an instant field. -/
  | instant {x : Binary64} (kind : f.kind = .instant)
    (held : run.instant? category f.name = some x) : Resolves f run category
  /-- The distribution of a distributional field, with a percentile that is asked for on
  its grid. -/
  | distributional {shown : Statistic} {d : Distribution Binary64}
    (kind : f.kind = .distributional shown) (held : run.distribution? category f.name = some d)
    (onGrid : ∀ p, shown = .percentile p → ∃ q ∈ d.grid, Distribution.sameGridPoint q p = true) :
    Resolves f run category

variable {f : Field} {run : Run} {category : Category}

/-- A field resolves exactly when it can be shown. -/
theorem resolves_iff_exists_shows :
    f.Resolves run category ↔ ∃ text, f.Shows run category text := by
  constructor
  · rintro (⟨kind, held⟩ | @⟨shown, d, kind, held, onGrid⟩)
    · exact ⟨_, .instant kind held⟩
    · cases read : d.statistic? shown with
      | some x => exact ⟨_, .distributional kind held read⟩
      | none =>
        obtain ⟨p, asked, off⟩ := Distribution.statistic?_eq_none_iff.1 read
        obtain ⟨q, point, near⟩ := onGrid p asked
        exact absurd (near.symm.trans (off q point)) (by simp)
  · rintro ⟨_, ⟨kind, held⟩ | ⟨kind, held, read⟩⟩
    · exact .instant kind held
    · refine .distributional kind held fun p asked => ?_
      by_contra off
      have missing := Distribution.statistic?_eq_none_iff.2 ⟨p, asked, by simpa using off⟩
      exact absurd (read.symm.trans missing) (by simp)

end Field

/-- A section is built exactly when each field that applies to its category and is chosen by
its selector resolves. Otherwise it is refused for the first of them that does not resolve.
Which values and which distributions a table holds follows from the category alone, and a
percentile is on the grid if a point is within the tolerance, as far as rounding lets tell. -/
theorem SectionPlan.build_outcome (plan : SectionPlan) (r : Registry) (run : Run) :
    ((∃ s, plan.build r run = .ok s) ↔ ∀ f ∈ r.fields, f.appliesTo plan.category = true →
      plan.selector.selects f = true → f.Resolves run plan.category) ∧
    (∀ failure, plan.build r run = .error failure ↔ ∃ before f after,
      (r.fields.filter fun f => f.appliesTo plan.category && plan.selector.selects f) =
        before ++ f :: after ∧
      (∀ earlier ∈ before, earlier.Resolves run plan.category) ∧
      f.Refused run plan.category (plan.category.name ++ " of run '" ++ run.tag ++ "'")
        failure) ∧
    (∀ name, ((∃ x, run.instant? plan.category name = some x) ↔ name ∈ plan.category.values) ∧
      ((∃ d, run.distribution? plan.category name = some d) ↔
        name ∈ plan.category.distributions)) ∧
    ∀ p q : Binary64, p.isFinite = true → q.isFinite = true →
      (|q.toRat - p.toRat| ≤ 1 / 10 ^ 12 → Distribution.sameGridPoint q p = true) ∧
      (Distribution.sameGridPoint q p = true → |q.toRat - p.toRat| ≤ 1 / 10 ^ 12 + 1 / 10 ^ 28) := by
  refine ⟨?_, fun failure => ?_,
    fun name => ⟨run.exists_instant?_iff, run.exists_distribution?_iff⟩,
    fun p q finiteP finiteQ => Distribution.sameGridPoint_between finiteQ finiteP⟩
  · simp only [exists_build_iff, fields_eq_filter, ← Field.resolves_iff_exists_shows,
      List.mem_filter, Bool.and_eq_true, and_imp]
  · rw [build_eq_error_iff, fields_eq_filter]
    simp only [Field.resolves_iff_exists_shows]

end RunReport
