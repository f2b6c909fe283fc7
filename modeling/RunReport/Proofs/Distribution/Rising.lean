import RunReport.Proofs.Distribution.Validity
import RunReport.Proofs.Number.Order

/-!
# Percentiles that rise along the grid

The values of a percentile table should not fall along its grid. A merge joins two
tables point by point, by the greater value or by the mean under two weights between
zero and one, and both keep the order as long as no mean is undefined. A mean could
only be so if a value without weight were infinite. That does not happen, however many
distributions are merged: a value becomes infinite only with samples, and samples have
weight.
-/

namespace RunReport.Distribution

open Binary64

/-- The values do not fall along the grid. -/
def Rising (d : Distribution Binary64) : Prop :=
  d.percentiles.Pairwise fun c e => c.value.le e.value = true

instance : DecidablePred Rising := fun d =>
  inferInstanceAs (Decidable (d.percentiles.Pairwise fun c e => c.value.le e.value = true))

/-- Tables that rise are joined into one that rises if joining their values keeps
the order. -/
theorem pairwise_joinPercentiles {join : Binary64 → Binary64 → Binary64}
    {as bs : List (Centile Binary64)}
    (mono : ∀ x ∈ as, ∀ x' ∈ as, ∀ y ∈ bs, ∀ y' ∈ bs, x.value.le x'.value = true →
      y.value.le y'.value = true → (join x.value y.value).le (join x'.value y'.value) = true)
    (ha : as.Pairwise fun c e => c.value.le e.value = true)
    (hb : bs.Pairwise fun c e => c.value.le e.value = true) :
    (joinPercentiles join as bs).Pairwise fun c e => c.value.le e.value = true := by
  induction as generalizing bs with
  | nil => exact List.Pairwise.nil
  | cons x as ih =>
    cases bs with
    | nil => exact List.Pairwise.nil
    | cons y bs =>
      obtain ⟨headA, tailA⟩ := List.pairwise_cons.1 ha
      obtain ⟨headB, tailB⟩ := List.pairwise_cons.1 hb
      refine List.pairwise_cons.2 ⟨fun e he => ?_, ih (fun u hu u' hu' v hv v' hv' =>
        mono u (.tail _ hu) u' (.tail _ hu') v (.tail _ hv) v' (.tail _ hv')) tailA tailB⟩
      obtain ⟨x', hx', y', hy', value⟩ := exists_of_mem_joinPercentiles he
      rw [value]
      exact mono x (.head _) x' (.tail _ hx') y (.head _) y' (.tail _ hy') (headA x' hx')
        (headB y' hy')

/-- What is not negative and at most one is between zero and one. -/
theorem isProbability_of_le {m : ℕ} (onGrid : Representable m) (le : m ≤ unit) :
    isProbability (.finite false m onGrid) = true := by
  have low : (Binary64.zero false).le (.finite false m onGrid) = true :=
    (le_iff_of_place (j := 0) (k := m) rfl rfl).2 (Int.natCast_nonneg m)
  have high : (Binary64.finite false m onGrid).le (ofNat 1) = true := by
    rw [ofNat_one]
    exact (le_iff_of_place (j := m) (k := unit) rfl rfl).2 (Int.ofNat_le.2 le)
  rw [isProbability, low, high, Bool.and_self]

section Mean

variable {m n : UInt64} {x x' y y' : Binary64}

/-- The sum of both parts of a mean. -/
theorem meanOf_eq (m n : UInt64) (x y : Binary64) :
    meanOf m n x y =
      ((shareOf m n : Binary64).mul x).add (((ofNat 1).sub (shareOf m n)).mul y) := by
  rw [meanOf, weighted_eq]

/-- The share of a count and what it leaves of one are between zero and one. -/
theorem isProbability_shareOf (some : ¬ (m = 0 ∧ n = 0)) (fits : m.toNat + n.toNat < 2 ^ 64) :
    isProbability (shareOf m n) = true ∧
      isProbability ((ofNat 1).sub (shareOf m n)) = true := by
  obtain ⟨k, onGrid, share, le, _⟩ := exists_shareOf_eq some fits
  obtain ⟨l, onGrid', rest, le'⟩ := exists_one_sub_shareOf_eq some fits
  rw [rest, share]
  exact ⟨isProbability_of_le onGrid le, isProbability_of_le onGrid' le'⟩

/-- Both parts of a mean and the mean itself are defined if the second value is finite,
and the first one too unless it has weight. -/
theorem meanOf_defined (some : ¬ (m = 0 ∧ n = 0)) (fits : m.toNat + n.toNat < 2 ^ 64)
    (defined : x ≠ .nan) (weightless : m = 0 → x.isFinite = true) (finite : y.isFinite = true) :
    (shareOf m n : Binary64).mul x ≠ .nan ∧ ((ofNat 1).sub (shareOf m n)).mul y ≠ .nan ∧
      meanOf m n x y ≠ .nan := by
  rw [meanOf_eq]
  obtain ⟨boundY, representable, withinY⟩ := exists_within_of_isFinite finite
  have right := ((within_one_sub_shareOf some fits).weigh withinY representable).isFinite
  cases hx : x with
  | nan => exact absurd hx defined
  | finite s k onGrid =>
    have withinX : (Binary64.finite s k onGrid).Within k := ⟨s, k, onGrid, rfl, le_rfl⟩
    have left := ((within_shareOf some fits).weigh withinX onGrid).isFinite
    exact ⟨ne_nan_of_isFinite left, ne_nan_of_isFinite right, add_ne_nan left right⟩
  | infinite s =>
    have present : m ≠ 0 := fun none => by
      have small := weightless none
      rw [hx] at small
      cases small
    obtain ⟨k, onGrid, share, _, positive⟩ := exists_shareOf_eq some fits
    have left : (shareOf m n : Binary64).mul (.infinite s) = .infinite (false != s) := by
      rw [share, mul, if_neg (positive present).ne']
    refine ⟨by simp [left], ne_nan_of_isFinite right, ?_⟩
    obtain ⟨t, l, onGrid', part⟩ := exists_eq_finite right
    rw [left, part, add]
    exact fun same => by cases same

/-- Means that are defined are in the order of their values. -/
theorem meanOf_mono (some : ¬ (m = 0 ∧ n = 0)) (fits : m.toNat + n.toNat < 2 ^ 64)
    (defined : x ≠ .nan ∧ x' ≠ .nan)
    (weightless : m = 0 → x.isFinite = true ∧ x'.isFinite = true)
    (finite : y.isFinite = true ∧ y'.isFinite = true) (hx : x.le x' = true)
    (hy : y.le y' = true) : (meanOf m n x y).le (meanOf m n x' y') = true := by
  obtain ⟨leftDefined, rightDefined, meanDefined⟩ :=
    meanOf_defined some fits defined.1 (fun none => (weightless none).1) finite.1
  obtain ⟨leftDefined', rightDefined', meanDefined'⟩ :=
    meanOf_defined some fits defined.2 (fun none => (weightless none).2) finite.2
  obtain ⟨k, onGrid, share, _⟩ := exists_shareOf_eq some fits
  obtain ⟨l, onGrid', rest, _⟩ := exists_one_sub_shareOf_eq some fits
  have left : ((shareOf m n : Binary64).mul x).le ((shareOf m n : Binary64).mul x') = true := by
    rw [share] at leftDefined leftDefined' ⊢
    exact weigh_mono onGrid hx leftDefined leftDefined'
  have right : (((ofNat 1).sub (shareOf m n)).mul y).le
      (((ofNat 1).sub (shareOf m n)).mul y') = true := by
    rw [rest] at rightDefined rightDefined' ⊢
    exact weigh_mono onGrid' hy rightDefined rightDefined'
  rw [meanOf_eq] at meanDefined meanDefined' ⊢
  rw [meanOf_eq]
  exact add_mono left right meanDefined meanDefined'

end Mean

variable {a b : Distribution Binary64}

/-- The percentiles of two distributions without samples are joined by the greater value. -/
theorem percentiles_pool_of_empty (empty : a.sampleCount = 0 ∧ b.sampleCount = 0) :
    (a.pool b).percentiles = joinPercentiles Binary64.max a.percentiles b.percentiles := by
  rw [pool, if_pos empty]
  rfl

/-- The percentiles of two distributions with samples are joined by the mean. -/
theorem percentiles_pool_of_counts (some : ¬ (a.sampleCount = 0 ∧ b.sampleCount = 0)) :
    (a.pool b).percentiles =
      joinPercentiles (meanOf a.sampleCount b.sampleCount) a.percentiles b.percentiles := by
  rw [pool_of_counts some]

/-- That is, weighted by the share of the first count and by what it leaves of one. -/
theorem percentiles_pool_weighted (some : ¬ (a.sampleCount = 0 ∧ b.sampleCount = 0)) :
    (a.pool b).percentiles = joinPercentiles
      (weighted (shareOf a.sampleCount b.sampleCount)
        ((ofNat 1).sub (shareOf a.sampleCount b.sampleCount))) a.percentiles b.percentiles := by
  rw [percentiles_pool_of_counts some, weighted_shares_eq]

/-- What a merge from left to right carries along. -/
structure Carried (d : Distribution Binary64) : Prop where
  /-- The values rise. -/
  rising : d.Rising
  /-- Every value is defined. -/
  defined : ∀ c ∈ d.percentiles, c.value ≠ .nan
  /-- Without samples every value is finite. -/
  finite_of_empty : d.sampleCount = 0 → ∀ c ∈ d.percentiles, c.value.isFinite = true

/-- The values of an accepted distribution are finite. -/
theorem Accepted.isFinite_value {d : Distribution Binary64} (h : d.Accepted)
    {c : Centile Binary64} (hc : c ∈ d.percentiles) : c.value.isFinite = true :=
  h.finite _ (value_mem_values hc)

/-- An accepted distribution that rises is carried. -/
theorem Accepted.carried {d : Distribution Binary64} (h : d.Accepted) (rising : d.Rising) :
    d.Carried :=
  ⟨rising, fun _ hc => ne_nan_of_isFinite (h.isFinite_value hc), fun _ _ => h.isFinite_value⟩

/-- One more accepted distribution that rises is carried along. -/
theorem Carried.pool (h : a.Carried) (accepted : b.Accepted) (rising : b.Rising)
    (fits : a.sampleCount.toNat + b.sampleCount.toNat < 2 ^ 64) : (a.pool b).Carried := by
  have finiteB : ∀ c ∈ b.percentiles, c.value.isFinite = true := fun _ => accepted.isFinite_value
  by_cases empty : a.sampleCount = 0 ∧ b.sampleCount = 0
  · have joined := percentiles_pool_of_empty empty
    have finite : ∀ c ∈ (a.pool b).percentiles, c.value.isFinite = true := by
      rw [joined]
      intro c hc
      obtain ⟨x, hx, y, hy, value⟩ := exists_of_mem_joinPercentiles hc
      rw [value]
      exact isFinite_max (h.finite_of_empty empty.1 x hx) (finiteB y hy)
    refine ⟨?_, fun c hc => ne_nan_of_isFinite (finite c hc), fun _ => finite⟩
    rw [Rising, joined]
    exact pairwise_joinPercentiles (fun _ _ _ _ _ _ _ _ => max_mono) h.rising rising
  · have joined := percentiles_pool_of_counts empty
    refine ⟨?_, ?_, fun none => ?_⟩
    · rw [Rising, joined]
      refine pairwise_joinPercentiles (fun x hx x' hx' y hy y' hy' => ?_) h.rising rising
      exact meanOf_mono empty fits ⟨h.defined x hx, h.defined x' hx'⟩
        (fun none => ⟨h.finite_of_empty none x hx, h.finite_of_empty none x' hx'⟩)
        ⟨finiteB y hy, finiteB y' hy'⟩
    · rw [joined]
      intro c hc
      obtain ⟨x, hx, y, hy, value⟩ := exists_of_mem_joinPercentiles hc
      rw [value]
      exact (meanOf_defined empty fits (h.defined x hx) (fun none => h.finite_of_empty none x hx)
        (finiteB y hy)).2.2
    · have total := toNat_sampleCount_pool fits
      rw [none, UInt64.toNat_zero] at total
      exact absurd ⟨UInt64.toNat_inj.1 (show a.sampleCount.toNat = 0 by omega),
        UInt64.toNat_inj.1 (show b.sampleCount.toNat = 0 by omega)⟩ empty

/-- What accepted distributions that rise come to is carried. -/
theorem carried_of_mergeAll {ds : List (Distribution Binary64)} {m : Distribution Binary64}
    (accepted : ∀ d ∈ ds, d.Accepted ∧ d.Rising) (merged : mergeAll ds = .ok m) : m.Carried := by
  refine mergeAll_induction (motive := fun _ m => m.Carried) (fun d hd => ?_)
    (fun before d hd reached m carried step => ?_) merged
  · exact (accepted d hd).1.carried (accepted d hd).2
  · obtain ⟨_, fits, rfl⟩ := merge_eq_ok_iff.1 step
    exact carried.pool (accepted d hd).1 (accepted d hd).2 fits

/-- Two distributions whose values rise merge into one whose values rise. With samples
its percentiles are means under two weights between zero and one. Any number of
distributions whose values rise merge into one whose values rise. -/
theorem rising_of_merge :
    (∀ a b m : Distribution Binary64, a.make = .ok a → b.make = .ok b → a.Rising → b.Rising →
      a.merge b = .ok m → m.Rising ∧ (m.sampleCount ≠ 0 → ∃ wa wb : Binary64,
        wa = (ofNat a.sampleCount.toNat).div (ofNat m.sampleCount.toNat) ∧
          wb = (ofNat 1).sub wa ∧ isProbability wa = true ∧ isProbability wb = true ∧
            m.percentiles = joinPercentiles (weighted wa wb) a.percentiles b.percentiles)) ∧
    ∀ (ds : List (Distribution Binary64)) (m : Distribution Binary64),
      (∀ d ∈ ds, d.make = .ok d ∧ d.Rising) → mergeAll ds = .ok m → m.Rising := by
  constructor
  · intro a b m madeA madeB risingA risingB merged
    have acceptedA := (make_eq_ok_iff.1 madeA).2
    have acceptedB := (make_eq_ok_iff.1 madeB).2
    obtain ⟨_, fits, rfl⟩ := merge_eq_ok_iff.1 merged
    refine ⟨((acceptedA.carried risingA).pool acceptedB risingB fits).rising, fun samples => ?_⟩
    have some : ¬ (a.sampleCount = 0 ∧ b.sampleCount = 0) := fun empty => by
      have total := toNat_sampleCount_pool fits
      rw [empty.1, empty.2] at total
      exact samples (UInt64.toNat_inj.1 total)
    obtain ⟨share, rest⟩ := isProbability_shareOf some fits
    have quotient := shareOf_eq a.sampleCount b.sampleCount
    rw [← toNat_sampleCount_pool fits] at quotient
    exact ⟨shareOf a.sampleCount b.sampleCount, _, quotient, rfl, share, rest,
      percentiles_pool_weighted some⟩
  · intro ds m given merged
    refine (carried_of_mergeAll (fun d hd => ?_) merged).rising
    exact ⟨(make_eq_ok_iff.1 (given d hd).1).2, (given d hd).2⟩

/-- Samples between zero and a level, on the grid of 0 and 1. -/
def ramp (count : UInt64) (level : ℕ) : Distribution Binary64 :=
  let x := ofNat level
  { sampleCount := count, centrality := x, spread := Binary64.zero false
    percentiles := [⟨Binary64.zero false, Binary64.zero false⟩, ⟨ofNat 1, x⟩]
    rangeLow := Binary64.zero false, rangeHigh := x }

/-- Ramps rise, and so does what they merge to, with samples and without. -/
theorem rising_of_merge_ramps :
    (∃ m, (ramp 1 3).merge (ramp 2 5) = .ok m ∧ m.sampleCount ≠ 0 ∧ m.Rising) ∧
      (∃ m, (ramp 0 3).merge (ramp 0 5) = .ok m ∧ m.Rising) ∧
        ∃ m, mergeAll [ramp 0 3, ramp 1 3, ramp 2 5] = .ok m ∧ m.Rising := by
  have given : ∀ d ∈ [ramp 0 3, ramp 0 5, ramp 1 3, ramp 2 5], d.make = .ok d ∧ d.Rising := by
    decide +kernel
  simp only [List.forall_mem_cons] at given
  obtain ⟨⟨madeA, risingA⟩, ⟨madeB, risingB⟩, ⟨madeC, risingC⟩, ⟨madeD, risingD⟩, _⟩ := given
  have counted : (ramp 1 3).merge (ramp 2 5) = .ok ((ramp 1 3).pool (ramp 2 5)) :=
    merge_eq_ok_iff.2 ⟨by decide +kernel, by decide +kernel, rfl⟩
  have empty : (ramp 0 3).merge (ramp 0 5) = .ok ((ramp 0 3).pool (ramp 0 5)) :=
    merge_eq_ok_iff.2 ⟨by decide +kernel, by decide +kernel, rfl⟩
  obtain ⟨m, all⟩ : ∃ m, mergeAll [ramp 0 3, ramp 1 3, ramp 2 5] = .ok m :=
    mergeAll_succeeds_iff.2 ⟨by decide +kernel, by decide +kernel⟩
  refine ⟨⟨_, counted, by decide +kernel,
    (rising_of_merge.1 _ _ _ madeC madeD risingC risingD counted).1⟩,
    ⟨_, empty, (rising_of_merge.1 _ _ _ madeA madeB risingA risingB empty).1⟩, m, all,
    rising_of_merge.2 _ m ?_ all⟩
  simp only [List.forall_mem_cons]
  exact ⟨⟨madeA, risingA⟩, ⟨madeC, risingC⟩, ⟨madeD, risingD⟩, List.forall_mem_nil _⟩

end RunReport.Distribution
