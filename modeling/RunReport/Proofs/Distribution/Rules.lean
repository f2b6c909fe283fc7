import RunReport.Distribution.Basic

/-!
# The rules of distributions

The checks that a distribution passes, as one statement with a name for each
rule. A distribution is made exactly when it obeys all of them, and is then
left as it was.
-/

namespace RunReport

namespace Binary64

/-- A number within 0 and 1 is finite. -/
theorem isFinite_of_isProbability {p : Binary64} (h : Distribution.isProbability p = true) :
    p.isFinite = true := by
  cases p with
  | finite negative n onGrid => rfl
  | infinite negative =>
    cases negative with
    | false => exact absurd h (by decide +kernel)
    | true => exact absurd h (by decide +kernel)
  | nan => exact absurd h (by decide +kernel)

end Binary64

namespace Distribution

/-- The rules that a binary64 distribution has to obey. -/
structure Accepted (d : Distribution Binary64) : Prop where
  /-- Every member is finite. -/
  finite : ∀ x ∈ d.values, x.isFinite = true
  /-- The spread is not below zero. -/
  spread_nonneg : d.spread.lt (Binary64.zero false) = false
  /-- The centre is not below the range. -/
  low_le : d.rangeLow.le d.centrality = true
  /-- The centre is not above the range. -/
  le_high : d.centrality.le d.rangeHigh = true
  /-- The grid has at least two points. -/
  two_le : 2 ≤ d.percentiles.length
  /-- Every probability is within 0 and 1. -/
  probabilities : ∀ p ∈ d.grid, isProbability p = true
  /-- The probabilities increase. -/
  increasing : firstDescent d.grid = none

/-- No rule is broken exactly when all are obeyed. -/
theorem defect?_eq_none_iff {d : Distribution Binary64} : d.defect? = none ↔ d.Accepted := by
  unfold defect?
  constructor
  · intro sound
    split at sound
    · exact absurd sound (by simp)
    rename_i finite
    split at sound
    · exact absurd sound (by simp)
    rename_i spread
    split at sound
    · exact absurd sound (by simp)
    rename_i inside
    split at sound
    · exact absurd sound (by simp)
    rename_i size
    split at sound
    · exact absurd sound (by simp)
    rename_i probabilities
    have between : d.rangeLow.le d.centrality = true ∧ d.centrality.le d.rangeHigh = true := by
      simpa using inside
    exact
      { finite := by simpa using finite
        spread_nonneg := by simpa using spread
        low_le := between.1
        le_high := between.2
        two_le := by omega
        probabilities := by simpa using probabilities
        increasing := by simpa using sound }
  · intro h
    have finite : d.values.all Binary64.isFinite = true := List.all_eq_true.2 h.finite
    have probabilities : (d.grid.find? fun p => !isProbability p) = none := by
      simpa using h.probabilities
    simp [finite, h.spread_nonneg, h.low_le, h.le_high, Nat.not_lt.2 h.two_le, probabilities,
      h.increasing]

/-- A distribution is made exactly when it obeys the rules, and is left as it is. -/
theorem make_eq_ok_iff {d e : Distribution Binary64} : d.make = .ok e ↔ e = d ∧ d.Accepted := by
  rw [← defect?_eq_none_iff, make]
  cases d.defect? with
  | none => simp [eq_comm]
  | some defect => simp

/-- The probabilities of an accepted distribution are finite. -/
theorem Accepted.isFinite_grid {d : Distribution Binary64} (h : d.Accepted) {p : Binary64}
    (hp : p ∈ d.grid) : p.isFinite = true :=
  Binary64.isFinite_of_isProbability (h.probabilities p hp)

/-- Samples that are all at one level, on the grid of 0 and 1. -/
def constant (count : UInt64) (level : Nat) : Distribution Binary64 :=
  let x := Binary64.ofNat level
  { sampleCount := count, centrality := x, spread := Binary64.zero false
    percentiles := [⟨Binary64.zero false, x⟩, ⟨Binary64.ofNat 1, x⟩]
    rangeLow := x, rangeHigh := x }

end Distribution

end RunReport
