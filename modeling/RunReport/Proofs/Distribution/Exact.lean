import Mathlib.Algebra.Order.Field.Rat
import Mathlib.Tactic.FieldSimp
import Mathlib.Tactic.Linarith
import Mathlib.Tactic.Positivity
import Mathlib.Tactic.Ring
import RunReport.Proofs.Distribution.Merging
import RunReport.Proofs.Distribution.Rules
import RunReport.Proofs.Number.Value

/-!
# Merging in exact arithmetic

The rule for merging, carried out on rationals, with the square of the spread
in place of the spread. Every accepted binary64 distribution reads as such an
exact one. Centre, percentiles and second moment of two populations are then
true weighted means, or the greater of both when neither has samples, and the
centre lies within the merged range before it is clamped.
-/

namespace RunReport

/-- Exact arithmetic. A spread is kept as its square, so no root is taken; the
square is still kept from below zero. -/
instance : Arithmetic ℚ where
  ofCount n := n
  add x y := x + y
  sub x y := x - y
  mul x y := x * y
  div x y := x / y
  max x y := Max.max x y
  min x y := Min.min x y
  clamp x low high :=
    let raised := if x < low then low else x
    if high < raised then high else raised
  squareOfSpread s := s
  spreadOfSquare v := Max.max v 0
  sameGridPoint p q := decide (|p - q| ≤ Distribution.gridTolerance.toRat)

namespace Distribution

/-- The exact reading of a distribution, its spread squared. -/
def exact (d : Distribution Binary64) : Distribution ℚ where
  sampleCount := d.sampleCount
  centrality := d.centrality.toRat
  spread := d.spread.toRat ^ 2
  percentiles := d.percentiles.map fun c => ⟨c.probability.toRat, c.value.toRat⟩
  rangeLow := d.rangeLow.toRat
  rangeHigh := d.rangeHigh.toRat

/-- The square of the spread is not negative and the centre lies in the range. -/
structure Centred (d : Distribution ℚ) : Prop where
  /-- The square is not negative. -/
  spread_nonneg : 0 ≤ d.spread
  /-- The centre is not below the range. -/
  low_le : d.rangeLow ≤ d.centrality
  /-- The centre is not above the range. -/
  le_high : d.centrality ≤ d.rangeHigh

/-- The rules of distributions in exact arithmetic. -/
structure Lawful (d : Distribution ℚ) : Prop extends Centred d where
  /-- The grid has at least two points. -/
  two_le : 2 ≤ d.percentiles.length
  /-- Every probability is within 0 and 1. -/
  probabilities : ∀ p ∈ d.grid, 0 ≤ p ∧ p ≤ 1
  /-- The probabilities increase. -/
  increasing : d.grid.Pairwise (· < ·)

/-- Finite probabilities without a descent increase in value. -/
theorem pairwise_toRat_of_firstDescent {ps : List Binary64}
    (finite : ∀ p ∈ ps, p.isFinite = true) (h : firstDescent ps = none) :
    (ps.map Binary64.toRat).Pairwise (· < ·) := by
  rw [← List.isChain_iff_pairwise]
  induction ps with
  | nil => exact List.isChain_nil
  | cons p rest ih =>
    cases rest with
    | nil => exact List.isChain_singleton _
    | cons q rest =>
      unfold firstDescent at h
      split at h
      · exact absurd h (by simp)
      · rename_i rises
        have hp := finite p List.mem_cons_self
        have hq := finite q (List.mem_cons_of_mem _ List.mem_cons_self)
        have below : p.toRat < q.toRat :=
          (Binary64.le_eq_false_iff_toRat_lt hq hp).1 (Bool.not_eq_true _ ▸ rises)
        have tail := ih (fun x hx => finite x (List.mem_cons_of_mem _ hx)) h
        exact List.isChain_cons_cons.2 ⟨below, tail⟩

/-- The exact reading keeps the grid. -/
theorem grid_exact (d : Distribution Binary64) : d.exact.grid = d.grid.map Binary64.toRat := by
  simp only [exact, grid, List.map_map, Function.comp_def]

/-- Constant distributions are on the grid of 0 and 1. -/
theorem grid_exact_constant (count : UInt64) (level : Nat) :
    (constant count level).exact.grid = [0, 1] := by
  have probabilities : (constant count level).grid =
      [Binary64.zero false, Binary64.ofNat 1] := by
    simp only [grid, constant, List.map_cons, List.map_nil]
  rw [grid_exact, probabilities, List.map_cons, List.map_singleton, Binary64.toRat_zero,
    Binary64.toRat_ofNat_one]

/-- What is checked of a probability is that its value is within 0 and 1. -/
theorem isProbability_iff {p : Binary64} :
    isProbability p = true ↔ p.isFinite ∧ 0 ≤ p.toRat ∧ p.toRat ≤ 1 := by
  have one : (Binary64.ofNat 1).isFinite = true := by decide +kernel
  constructor
  · intro inside
    have finite := Binary64.isFinite_of_isProbability inside
    obtain ⟨above, below⟩ := (Bool.and_eq_true _ _).mp inside
    have above := (Binary64.le_iff_toRat_le rfl finite).1 above
    have below := (Binary64.le_iff_toRat_le finite one).1 below
    rw [Binary64.toRat_zero] at above
    rw [Binary64.toRat_ofNat_one] at below
    exact ⟨finite, above, below⟩
  · intro inside
    obtain ⟨finite, above, below⟩ := inside
    rw [← Binary64.toRat_zero false] at above
    rw [← Binary64.toRat_ofNat_one] at below
    exact (Bool.and_eq_true _ _).mpr ⟨(Binary64.le_iff_toRat_le rfl finite).2 above,
      (Binary64.le_iff_toRat_le finite one).2 below⟩

/-- An accepted distribution obeys the rules in its exact reading. -/
theorem Accepted.lawful_exact {d : Distribution Binary64} (h : d.Accepted) : d.exact.Lawful := by
  have centre : d.centrality.isFinite = true := h.finite _ (by simp [values])
  have low : d.rangeLow.isFinite = true := h.finite _ (by simp [values])
  have high : d.rangeHigh.isFinite = true := h.finite _ (by simp [values])
  refine
    { spread_nonneg := sq_nonneg _
      low_le := (Binary64.le_iff_toRat_le low centre).1 h.low_le
      le_high := (Binary64.le_iff_toRat_le centre high).1 h.le_high
      two_le := by simpa [exact] using h.two_le
      probabilities := ?_
      increasing := grid_exact d ▸
        pairwise_toRat_of_firstDescent (fun p hp => h.isFinite_grid hp) h.increasing }
  intro x hx
  rw [grid_exact] at hx
  obtain ⟨p, hp, rfl⟩ := List.mem_map.1 hx
  exact (isProbability_iff.1 (h.probabilities p hp)).2

/-- The tolerance of grids is not negative. -/
theorem gridTolerance_nonneg : 0 ≤ gridTolerance.toRat := by
  have finite : gridTolerance.isFinite = true := by decide +kernel
  have above : (Binary64.zero false).le gridTolerance = true := by decide +kernel
  simpa using (Binary64.le_iff_toRat_le rfl finite).1 above

/-- Distributions on one grid agree. -/
theorem sameGrid_of_grid_eq {a b : Distribution ℚ} (h : a.grid = b.grid) :
    a.sameGrid b = true := by
  rw [sameGrid_iff, ← h]
  refine List.forall₂_same.2 fun p _ => decide_eq_true ?_
  rw [sub_self, abs_zero]
  exact gridTolerance_nonneg

end Distribution

end RunReport
