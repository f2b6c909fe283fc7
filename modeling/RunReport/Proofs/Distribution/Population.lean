import Mathlib.Data.Set.Image
import Mathlib.Order.Bounds.Basic
import RunReport.Proofs.Distribution.Pooling

/-!
# What several populations determine together

In exact arithmetic the merged distribution of several parts is determined by
the parts alone, not by the way they were merged: its count and range are those
of all parts, its centre, percentiles and second moment have the parts' sums
over all samples, and without any sample it has the greatest of the parts'
members. A pool of two such distributions is one over the parts of both.
-/

namespace RunReport

namespace Distribution

/-- The sum of a member over all samples. -/
def weightedSum (f : Distribution ℚ → ℚ) (parts : List (Distribution ℚ)) : ℚ :=
  (parts.map fun p => p.weight * f p).sum

/-- Sums over two lists add up. -/
theorem weightedSum_append (f : Distribution ℚ → ℚ) (s t : List (Distribution ℚ)) :
    weightedSum f (s ++ t) = weightedSum f s + weightedSum f t := by
  simp only [weightedSum, List.map_append, List.sum_append]

/-- The values of a member over a list. -/
def memberValues (f : Distribution ℚ → ℚ) (parts : List (Distribution ℚ)) : Set ℚ :=
  f '' {p | p ∈ parts}

/-- The values over two lists are those over one or the other. -/
theorem memberValues_append (f : Distribution ℚ → ℚ) (s t : List (Distribution ℚ)) :
    memberValues f (s ++ t) = memberValues f s ∪ memberValues f t := by
  simp only [memberValues, List.mem_append, Set.ofPred_or, Set.image_union]

/-- A member is blended over all parts: the weighted mean of theirs, and the
greatest of theirs when there are no samples. -/
structure Blended (f : Distribution ℚ → ℚ) (parts : List (Distribution ℚ)) (d : Distribution ℚ) :
    Prop where
  /-- Its sum over all samples is that over the parts. -/
  weighted : d.weight * f d = weightedSum f parts
  /-- Without samples it is the greatest one. -/
  greatest : d.sampleCount = 0 → IsGreatest (memberValues f parts) (f d)

/-- A distribution pools parts: every member is what the parts determine. -/
structure Pools (parts : List (Distribution ℚ)) (d : Distribution ℚ) : Prop where
  /-- It has the samples of all parts. -/
  count : d.sampleCount.toNat = totalCount parts
  /-- All parts are on its grid. -/
  grid : ∀ p ∈ parts, p.grid = d.grid
  /-- Its range begins with the least value of any part. -/
  low : IsLeast (memberValues rangeLow parts) d.rangeLow
  /-- Its range ends with the greatest value of any part. -/
  high : IsGreatest (memberValues rangeHigh parts) d.rangeHigh
  /-- Its centre is blended from all parts. -/
  centre : Blended centrality parts d
  /-- Its percentiles are blended from all parts. -/
  values : ∀ k, Blended (percentileAt k) parts d
  /-- Its samples' squares add up to those of all parts. -/
  moment : d.weight * d.secondMoment = weightedSum secondMoment parts
  /-- Without samples its squared spread is the greatest one. -/
  square : d.sampleCount = 0 → IsGreatest (memberValues spread parts) d.spread

/-- A distribution pools itself. -/
theorem pools_singleton (d : Distribution ℚ) : Pools [d] d := by
  have sum (f : Distribution ℚ → ℚ) : d.weight * f d = weightedSum f [d] := by simp [weightedSum]
  have values (f : Distribution ℚ → ℚ) : memberValues f [d] = {f d} := by simp [memberValues]
  have blended (f : Distribution ℚ → ℚ) : Blended f [d] d :=
    ⟨sum f, fun _ => values f ▸ isGreatest_singleton⟩
  exact
    { count := by simp [totalCount]
      grid := by simp
      low := values rangeLow ▸ isLeast_singleton
      high := values rangeHigh ▸ isGreatest_singleton
      centre := blended _
      values := fun k => blended _
      moment := sum _
      square := fun _ => values spread ▸ isGreatest_singleton }

/-- What a distribution pools does not depend on the order of the parts. -/
theorem Pools.perm {s t : List (Distribution ℚ)} {d : Distribution ℚ} (h : Pools s d)
    (order : s.Perm t) : Pools t d := by
  have members : ∀ p, p ∈ s ↔ p ∈ t := fun p => order.mem_iff
  have sum (f : Distribution ℚ → ℚ) : weightedSum f s = weightedSum f t := (order.map _).sum_eq
  have values (f : Distribution ℚ → ℚ) : memberValues f s = memberValues f t := by
    simp only [memberValues, members]
  have blended {f : Distribution ℚ → ℚ} (hf : Blended f s d) : Blended f t d :=
    ⟨sum f ▸ hf.weighted, values f ▸ hf.greatest⟩
  exact
    { count := totalCount_perm order ▸ h.count
      grid := fun p hp => h.grid p ((members p).2 hp)
      low := values rangeLow ▸ h.low
      high := values rangeHigh ▸ h.high
      centre := blended h.centre
      values := fun k => blended (h.values k)
      moment := sum secondMoment ▸ h.moment
      square := values spread ▸ h.square }

/-- A pool without samples has only parts without samples. -/
theorem empty_of_pool {a b : Distribution ℚ}
    (fits : a.sampleCount.toNat + b.sampleCount.toNat < 2 ^ 64)
    (none : (a.pool b).sampleCount = 0) : Empty a b := by
  have total : a.sampleCount.toNat + b.sampleCount.toNat = 0 := by
    rw [← toNat_sampleCount_pool fits, none]
    rfl
  have zero := Nat.add_eq_zero_iff.1 total
  exact ⟨UInt64.toNat_inj.1 zero.1, UInt64.toNat_inj.1 zero.2⟩

/-- A member that two distributions blend is blended over the parts of both. -/
theorem Blended.pool {f : Distribution ℚ → ℚ} {s t : List (Distribution ℚ)}
    {a b : Distribution ℚ} (ha : Blended f s a) (hb : Blended f t b)
    (fits : a.sampleCount.toNat + b.sampleCount.toNat < 2 ^ 64)
    (blends : f (a.pool b) = blend a b (f a) (f b)) : Blended f (s ++ t) (a.pool b) := by
  constructor
  · rw [weight_pool fits, blends, weight_mul_blend, weightedSum_append, ha.weighted, hb.weighted]
  · intro none
    have empty := empty_of_pool fits none
    rw [blends, blend, if_pos empty, memberValues_append]
    exact (ha.greatest empty.1).union (hb.greatest empty.2)

/-- Merged distributions pool the parts of both sides: what one merge preserves. -/
theorem Pools.pool {s t : List (Distribution ℚ)} {a b : Distribution ℚ} (hs : Pools s a)
    (ht : Pools t b) (ha : a.Centred) (hb : b.Centred) (same : a.grid = b.grid)
    (fits : a.sampleCount.toNat + b.sampleCount.toNat < 2 ^ 64) : Pools (s ++ t) (a.pool b) := by
  have grids : (a.pool b).grid = a.grid := grid_pool (sameGrid_of_grid_eq same)
  have size := length_percentiles_of_grid_eq same
  refine
    { count := ?_
      grid := ?_
      low := rangeLow_pool a b ▸ memberValues_append rangeLow s t ▸ hs.low.union ht.low
      high := rangeHigh_pool a b ▸ memberValues_append rangeHigh s t ▸ hs.high.union ht.high
      centre := hs.centre.pool ht.centre fits (centrality_pool ha hb)
      values := fun k => (hs.values k).pool (ht.values k) fits (percentileAt_pool size k)
      moment := ?_
      square := ?_ }
  · rw [toNat_sampleCount_pool fits, hs.count, ht.count, totalCount_append]
  · intro p hp
    rcases List.mem_append.1 hp with hp | hp
    · rw [hs.grid p hp, grids]
    · rw [ht.grid p hp, grids, same]
  · rw [weight_pool fits, weightedSum_append, ← hs.moment, ← ht.moment]
    by_cases empty : Empty a b
    · simp [weight_of_empty empty.1, weight_of_empty empty.2]
    · rw [secondMoment_pool ha hb empty, weight_mul_blend]
  · intro none
    have empty := empty_of_pool fits none
    rw [spread_pool_of_empty empty, memberValues_append]
    exact (hs.square empty.1).union (ht.square empty.2)

/-- A distribution with samples has weight. -/
theorem weight_ne_zero {d : Distribution ℚ} (h : d.sampleCount ≠ 0) : d.weight ≠ 0 := by
  intro zero
  exact h (UInt64.toNat_inj.1 (Nat.cast_eq_zero.1 zero))

/-- A blended member is determined by the parts and the count of samples. -/
theorem Blended.unique {f : Distribution ℚ → ℚ} {parts : List (Distribution ℚ)}
    {d e : Distribution ℚ} (hd : Blended f parts d) (he : Blended f parts e)
    (same : d.sampleCount = e.sampleCount) : f d = f e := by
  by_cases none : d.sampleCount = 0
  · exact (hd.greatest none).unique (he.greatest (same ▸ none))
  · have weights : d.weight = e.weight := by rw [weight, weight, same]
    have sums := hd.weighted.trans he.weighted.symm
    rw [← weights] at sums
    exact mul_left_cancel₀ (weight_ne_zero none) sums

/-- A percentile table is its grid and its values. -/
theorem percentiles_ext {x y : List (Centile ℚ)}
    (grid : x.map (·.probability) = y.map (·.probability))
    (values : ∀ k, (x.map (·.value)).getD k 0 = (y.map (·.value)).getD k 0) : x = y := by
  induction x generalizing y with
  | nil => exact (List.map_eq_nil_iff.1 grid.symm).symm
  | cons p x ih =>
    cases y with
    | nil => exact absurd grid (by simp)
    | cons q y =>
      obtain ⟨probability, rest⟩ := List.cons.inj grid
      have value : p.value = q.value := by simpa using values 0
      have tail : x = y := ih rest fun k => by simpa using values (k + 1)
      obtain ⟨_, _⟩ := p
      obtain ⟨_, _⟩ := q
      simp only at probability value
      rw [tail, probability, value]

/-- Parts determine the distribution that pools them. -/
theorem Pools.unique {parts : List (Distribution ℚ)} {d e : Distribution ℚ}
    (present : parts ≠ []) (hd : Pools parts d) (he : Pools parts e) : d = e := by
  obtain ⟨part, hpart⟩ := List.exists_mem_of_ne_nil parts present
  have count : d.sampleCount = e.sampleCount := UInt64.toNat_inj.1 (hd.count.trans he.count.symm)
  have centre : d.centrality = e.centrality := hd.centre.unique he.centre count
  have table : d.percentiles = e.percentiles :=
    percentiles_ext ((hd.grid part hpart).symm.trans (he.grid part hpart))
      fun k => (hd.values k).unique (he.values k) count
  have square : d.spread = e.spread := by
    by_cases none : d.sampleCount = 0
    · exact (hd.square none).unique (he.square (count ▸ none))
    · have weights : d.weight = e.weight := by rw [weight, weight, count]
      have sums := hd.moment.trans he.moment.symm
      rw [← weights] at sums
      have moments := mul_left_cancel₀ (weight_ne_zero none) sums
      rw [secondMoment, secondMoment, centre] at moments
      exact add_right_cancel moments
  have low := hd.low.unique he.low
  have high := hd.high.unique he.high
  cases d
  cases e
  dsimp only at count centre table square low high
  rw [count, centre, table, square, low, high]

end Distribution

end RunReport
