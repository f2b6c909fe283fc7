import RunReport.Proofs.Distribution.Exact

/-!
# Pooling two populations exactly

What the rule for merging does to each member in exact arithmetic. Counts and
range merge exactly. Centre and percentiles blend: two populations without
samples give the greater number, all others the mean weighted by the counts.
The squared spread blends in the same way when none has samples; otherwise it
is the second moment that does, so that the pooled square is that of the whole
population.
-/

namespace RunReport.Distribution

variable {a b : Distribution ℚ}

/-- The count of samples as a number. -/
def weight (d : Distribution ℚ) : ℚ := d.sampleCount.toNat

/-- A weight is a count. -/
theorem weight_nonneg (d : Distribution ℚ) : 0 ≤ d.weight := Nat.cast_nonneg _

/-- A distribution without samples has no weight. -/
theorem weight_of_empty {d : Distribution ℚ} (h : d.sampleCount = 0) : d.weight = 0 := by
  simp [weight, h]

/-- Weights add up when the counts fit together. -/
theorem weight_pool (fits : a.sampleCount.toNat + b.sampleCount.toNat < 2 ^ 64) :
    (a.pool b).weight = a.weight + b.weight := by
  rw [weight, toNat_sampleCount_pool fits, Nat.cast_add]
  rfl

/-- Whether neither of two distributions has samples. -/
def Empty (a b : Distribution ℚ) : Prop := a.sampleCount = 0 ∧ b.sampleCount = 0

instance : Decidable (Empty a b) := inferInstanceAs (Decidable (_ ∧ _))

/-- Of two distributions that are not both empty one has weight. -/
theorem weight_add_pos (h : ¬ Empty a b) : 0 < a.weight + b.weight := by
  have present : a.sampleCount.toNat + b.sampleCount.toNat ≠ 0 := by
    intro none
    have zero := Nat.add_eq_zero_iff.1 none
    exact h ⟨UInt64.toNat_inj.1 zero.1, UInt64.toNat_inj.1 zero.2⟩
  have positive : 0 < a.sampleCount.toNat + b.sampleCount.toNat := Nat.pos_of_ne_zero present
  unfold weight
  exact_mod_cast positive

/-- The share of the first distribution in both populations. -/
def share (a b : Distribution ℚ) : ℚ := a.weight / (a.weight + b.weight)

/-- The merging rule takes the share for the weight of the first side. -/
theorem shareOf_eq_share (a b : Distribution ℚ) :
    shareOf a.sampleCount b.sampleCount = share a b := by
  change (a.sampleCount.toNat : ℚ) / ((a.sampleCount.toNat + b.sampleCount.toNat : ℕ) : ℚ) = _
  rw [Nat.cast_add]
  rfl

/-- A share is between nothing and all. -/
theorem share_mem (a b : Distribution ℚ) : 0 ≤ share a b ∧ share a b ≤ 1 := by
  have ha := a.weight_nonneg
  have hb := b.weight_nonneg
  exact ⟨by unfold share; positivity, div_le_one_of_le₀ (by linarith) (by linarith)⟩

/-- The mean of two numbers under the shares of both distributions. -/
def mean (a b : Distribution ℚ) (x y : ℚ) : ℚ := share a b * x + (1 - share a b) * y

/-- Two numbers, one for each distribution, joined as the merging rule joins
centres and percentiles. -/
def blend (a b : Distribution ℚ) (x y : ℚ) : ℚ :=
  if Empty a b then max x y else mean a b x y

/-- A blend lies between bounds of both of its numbers. -/
theorem blend_mem {x y low high : ℚ} (hx : low ≤ x ∧ x ≤ high) (hy : low ≤ y ∧ y ≤ high) :
    low ≤ blend a b x y ∧ blend a b x y ≤ high := by
  obtain ⟨nonneg, atMost⟩ := share_mem a b
  unfold blend
  split
  · exact ⟨hx.1.trans (le_max_left _ _), max_le hx.2 hy.2⟩
  · unfold mean
    constructor
    · nlinarith [hx.1, hy.1]
    · nlinarith [hx.2, hy.2]

/-- Weighted by both populations, a blend is the sum of its weighted numbers. -/
theorem weight_mul_blend (a b : Distribution ℚ) (x y : ℚ) :
    (a.weight + b.weight) * blend a b x y = a.weight * x + b.weight * y := by
  by_cases none : Empty a b
  · simp [weight_of_empty none.1, weight_of_empty none.2]
  · have total := (weight_add_pos none).ne'
    rw [blend, if_neg none, mean, share]
    field_simp
    ring

/-- The pool of two distributions without samples, member by member. -/
theorem pool_of_empty (none : Empty a b) :
    a.pool b =
      { sampleCount := 0
        centrality := Arithmetic.clamp (max a.centrality b.centrality)
          (min a.rangeLow b.rangeLow) (max a.rangeHigh b.rangeHigh)
        spread := max a.spread b.spread
        percentiles := joinPercentiles max a.percentiles b.percentiles
        rangeLow := min a.rangeLow b.rangeLow
        rangeHigh := max a.rangeHigh b.rangeHigh } := if_pos none

/-- The pooled square before it is kept from below zero: that of each part and
of its distance from the common centre. -/
def pooledSquare (a b : Distribution ℚ) : ℚ :=
  let centre := mean a b a.centrality b.centrality
  mean a b (a.spread + (a.centrality - centre) * (a.centrality - centre))
    (b.spread + (b.centrality - centre) * (b.centrality - centre))

/-- The pool of two distributions of which one has samples, member by member. -/
theorem pool_of_samples (some : ¬ Empty a b) :
    a.pool b =
      { sampleCount := a.sampleCount + b.sampleCount
        centrality := Arithmetic.clamp (mean a b a.centrality b.centrality)
          (min a.rangeLow b.rangeLow) (max a.rangeHigh b.rangeHigh)
        spread := max (pooledSquare a b) 0
        percentiles := joinPercentiles (mean a b) a.percentiles b.percentiles
        rangeLow := min a.rangeLow b.rangeLow
        rangeHigh := max a.rangeHigh b.rangeHigh } := by
  have joined : mean a b = weighted (shareOf a.sampleCount b.sampleCount)
      (Arithmetic.sub (Arithmetic.ofCount 1) (shareOf a.sampleCount b.sampleCount)) := by
    funext x y
    rw [shareOf_eq_share]
    change share a b * x + (1 - share a b) * y = share a b * x + (((1 : ℕ) : ℚ) - share a b) * y
    rw [Nat.cast_one]
  unfold pooledSquare
  rw [joined]
  exact if_neg some

/-- The least value of a pool is the lesser of both. -/
theorem rangeLow_pool (a b : Distribution ℚ) :
    (a.pool b).rangeLow = min a.rangeLow b.rangeLow := (range_pool a b).1

/-- The greatest value of a pool is the greater of both. -/
theorem rangeHigh_pool (a b : Distribution ℚ) :
    (a.pool b).rangeHigh = max a.rangeHigh b.rangeHigh := (range_pool a b).2

/-- A number within the bounds is not clamped. -/
theorem clamp_of_mem {x low high : ℚ} (h : low ≤ x ∧ x ≤ high) :
    Arithmetic.clamp x low high = x := by
  change (if high < if x < low then low else x then high else if x < low then low else x) = x
  rw [if_neg (not_lt.2 h.1), if_neg (not_lt.2 h.2)]

/-- The blended centre lies within the merged range. -/
theorem Centred.blend_mem (ha : a.Centred) (hb : b.Centred) :
    min a.rangeLow b.rangeLow ≤ blend a b a.centrality b.centrality ∧
      blend a b a.centrality b.centrality ≤ max a.rangeHigh b.rangeHigh :=
  Distribution.blend_mem
    ⟨(min_le_left _ _).trans ha.low_le, ha.le_high.trans (le_max_left _ _)⟩
    ⟨(min_le_right _ _).trans hb.low_le, hb.le_high.trans (le_max_right _ _)⟩

/-- The centre of a pool is clamped from the blended centre. -/
theorem centrality_pool_eq_clamp (a b : Distribution ℚ) :
    (a.pool b).centrality = Arithmetic.clamp (blend a b a.centrality b.centrality)
      (min a.rangeLow b.rangeLow) (max a.rangeHigh b.rangeHigh) := by
  by_cases none : Empty a b
  · rw [pool_of_empty none, blend, if_pos none]
  · rw [pool_of_samples none, blend, if_neg none]

/-- The clamp leaves the blended centre as it is. -/
theorem centrality_pool (ha : a.Centred) (hb : b.Centred) :
    (a.pool b).centrality = blend a b a.centrality b.centrality := by
  rw [centrality_pool_eq_clamp, clamp_of_mem (ha.blend_mem hb)]

/-- The value in the given place of the percentile table; zero beyond it. -/
def percentileAt (k : Nat) (d : Distribution ℚ) : ℚ := (d.percentiles.map (·.value)).getD k 0

/-- Joined percentiles are joined place by place. -/
theorem getD_joinPercentiles {join : ℚ → ℚ → ℚ} (zero : join 0 0 = 0) {x y : List (Centile ℚ)}
    (size : x.length = y.length) (k : Nat) :
    ((joinPercentiles join x y).map (·.value)).getD k 0 =
      join ((x.map (·.value)).getD k 0) ((y.map (·.value)).getD k 0) := by
  induction x generalizing y k with
  | nil =>
    obtain rfl : y = [] := List.length_eq_zero_iff.1 size.symm
    simp [joinPercentiles, zero]
  | cons p x ih =>
    cases y with
    | nil => exact absurd size (by simp)
    | cons q y =>
      have rest : x.length = y.length := Nat.succ.inj size
      cases k with
      | zero => simp [joinPercentiles]
      | succ k => simpa [joinPercentiles] using ih rest k

/-- Percentiles of a pool are blended place by place. -/
theorem percentileAt_pool (size : a.percentiles.length = b.percentiles.length) (k : Nat) :
    (a.pool b).percentileAt k = blend a b (a.percentileAt k) (b.percentileAt k) := by
  by_cases none : Empty a b
  · rw [blend, if_pos none, pool_of_empty none]
    exact getD_joinPercentiles (max_self _) size k
  · rw [blend, if_neg none, pool_of_samples none]
    exact getD_joinPercentiles (by simp [mean]) size k

/-- The mean square of the samples. -/
def secondMoment (d : Distribution ℚ) : ℚ := d.spread + d.centrality ^ 2

/-- Without samples the greater square is taken. -/
theorem spread_pool_of_empty (none : Empty a b) : (a.pool b).spread = max a.spread b.spread := by
  rw [pool_of_empty none]

/-- The pooled square is not negative. -/
theorem pooledSquare_nonneg (ha : a.Centred) (hb : b.Centred) : 0 ≤ pooledSquare a b := by
  obtain ⟨nonneg, atMost⟩ := share_mem a b
  have rest : 0 ≤ 1 - share a b := sub_nonneg.2 atMost
  refine add_nonneg (mul_nonneg nonneg ?_) (mul_nonneg rest ?_)
  · exact add_nonneg ha.spread_nonneg (mul_self_nonneg _)
  · exact add_nonneg hb.spread_nonneg (mul_self_nonneg _)

/-- With samples the pooled square is taken. -/
theorem spread_pool_of_samples (ha : a.Centred) (hb : b.Centred) (some : ¬ Empty a b) :
    (a.pool b).spread = pooledSquare a b := by
  rw [pool_of_samples some]
  exact max_eq_left (pooledSquare_nonneg ha hb)

/-- The second moment of a population with samples is blended: the parts'
distances from the common centre are what the means leave out. -/
theorem secondMoment_pool (ha : a.Centred) (hb : b.Centred) (some : ¬ Empty a b) :
    (a.pool b).secondMoment = blend a b a.secondMoment b.secondMoment := by
  rw [secondMoment, spread_pool_of_samples ha hb some, centrality_pool ha hb]
  simp only [blend, if_neg some, pooledSquare, mean, secondMoment]
  ring

/-- A pool has its centre within its range again. -/
theorem Centred.pool (ha : a.Centred) (hb : b.Centred) : (a.pool b).Centred := by
  obtain ⟨above, below⟩ := ha.blend_mem hb
  refine
    { spread_nonneg := ?_
      low_le := by rwa [rangeLow_pool, centrality_pool ha hb]
      le_high := by rwa [rangeHigh_pool, centrality_pool ha hb] }
  by_cases none : Empty a b
  · rw [spread_pool_of_empty none]
    exact ha.spread_nonneg.trans (le_max_left _ _)
  · rw [spread_pool_of_samples ha hb none]
    exact pooledSquare_nonneg ha hb

/-- A centred distribution on the grid of a lawful one is lawful. -/
theorem Lawful.of_grid_eq {d m : Distribution ℚ} (h : d.Lawful) (centred : m.Centred)
    (same : m.grid = d.grid) : m.Lawful := by
  have size := length_percentiles_of_grid_eq same
  exact
    { toCentred := centred
      two_le := size ▸ h.two_le
      probabilities := same ▸ h.probabilities
      increasing := same ▸ h.increasing }

end RunReport.Distribution
