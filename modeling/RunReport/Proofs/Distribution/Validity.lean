import RunReport.Proofs.Distribution.Overflow
import RunReport.Proofs.Distribution.ReadBack

/-!
# Which merged distributions are distributions

A merge builds its result without applying the rules of distributions. The
result of merging accepted distributions keeps all of them but one: its range,
its centre within the range, its grid and the sign of its spread are in order,
but the spread and the percentiles may be infinite, since squares and sums
overflow. Exactly then it is rejected, when it is made again and when it is taken from
the JSON value that is written for it.
-/

namespace RunReport

namespace Distribution

open Binary64

/-- A distribution that obeys every rule but perhaps that its spread and its
percentiles are finite. -/
structure Ordered (d : Distribution Binary64) : Prop where
  /-- The centre is finite. -/
  finite_centrality : d.centrality.isFinite = true
  /-- The lower end of the range is finite. -/
  finite_low : d.rangeLow.isFinite = true
  /-- The upper end of the range is finite. -/
  finite_high : d.rangeHigh.isFinite = true
  /-- The spread is not below zero. -/
  spread_nonneg : d.spread.lt (Binary64.zero false) = false
  /-- The centre is not below the range. -/
  low_le : d.rangeLow.le d.centrality = true
  /-- The centre is not above the range. -/
  le_high : d.centrality.le d.rangeHigh = true
  /-- The grid has at least two points. -/
  two_le : 2 ≤ d.percentiles.length
  /-- Every probability is within 0 and 1. -/
  probabilities : ∀ p ∈ d.grid, isProbability p = true
  /-- The probabilities increase. -/
  increasing : firstDescent d.grid = none

/-- The value of a percentile is one of the members that have to be finite. -/
theorem value_mem_values {d : Distribution Binary64} {c : Centile Binary64}
    (h : c ∈ d.percentiles) : c.value ∈ d.values := by
  simp only [values, List.mem_cons, List.mem_map]
  exact Or.inr (Or.inr (Or.inr (Or.inr ⟨c, h, rfl⟩)))

/-- The rules are these and that spread and percentiles are finite. -/
theorem accepted_iff_ordered {d : Distribution Binary64} :
    d.Accepted ↔ d.Ordered ∧ d.spread.isFinite = true ∧
      ∀ c ∈ d.percentiles, c.value.isFinite = true := by
  have members : (∀ x ∈ d.values, x.isFinite = true) ↔
      d.centrality.isFinite = true ∧ d.spread.isFinite = true ∧ d.rangeLow.isFinite = true ∧
        d.rangeHigh.isFinite = true ∧ ∀ c ∈ d.percentiles, c.value.isFinite = true := by
    simp only [values, List.forall_mem_cons, List.forall_mem_map]
  constructor
  · intro h
    obtain ⟨centre, spread, low, high, points⟩ := members.1 h.finite
    exact ⟨⟨centre, low, high, h.spread_nonneg, h.low_le, h.le_high, h.two_le, h.probabilities,
      h.increasing⟩, spread, points⟩
  · rintro ⟨h, spread, points⟩
    exact ⟨members.2 ⟨h.finite_centrality, spread, h.finite_low, h.finite_high, points⟩,
      h.spread_nonneg, h.low_le, h.le_high, h.two_le, h.probabilities, h.increasing⟩

variable {a b : Distribution Binary64}

/-- The pooled centre is a number that is defined, brought into the pooled range. -/
theorem exists_centrality_pool_eq (ha : a.centrality.isFinite = true)
    (hb : b.centrality.isFinite = true)
    (fits : a.sampleCount.toNat + b.sampleCount.toNat < 2 ^ 64) :
    ∃ x : Binary64, x ≠ .nan ∧
      (a.pool b).centrality = x.clamp (a.pool b).rangeLow (a.pool b).rangeHigh := by
  unfold pool
  dsimp only
  split
  · exact ⟨Binary64.max a.centrality b.centrality,
      ne_nan_of_isFinite (isFinite_max ha hb), rfl⟩
  · rename_i some
    exact ⟨_, weighted_ne_nan (within_shareOf some fits) (within_one_sub_shareOf some fits) ha hb,
      rfl⟩

/-- The mean of two numbers, weighted by two counts. -/
def meanOf (m n : UInt64) (x y : Binary64) : Binary64 :=
  weighted (shareOf m n) ((ofNat 1).sub (shareOf m n)) x y

/-- Its weights are the share of the first count and what it leaves of one. -/
theorem weighted_shares_eq (m n : UInt64) :
    weighted (shareOf m n) ((ofNat 1).sub (shareOf m n)) = meanOf m n := by
  funext x y
  rw [meanOf]

/-- Without samples the pooled spread is the greater of both. -/
theorem spread_pool_eq_max (empty : a.sampleCount = 0 ∧ b.sampleCount = 0) :
    (a.pool b).spread = Binary64.max a.spread b.spread := by
  rw [pool, if_pos empty]
  rfl

/-- The root of the two parts of the pooled square. -/
def pooledSpread (a b : Distribution Binary64) : Binary64 :=
  let centre := meanOf a.sampleCount b.sampleCount a.centrality b.centrality
  let share := shareOf a.sampleCount b.sampleCount
  let square := (pooledPart share a.spread a.centrality centre).add
    (pooledPart ((ofNat 1).sub share) b.spread b.centrality centre)
  (square.max (Binary64.zero false)).sqrt

/-- The pool of two distributions of which one has samples, member by member. -/
theorem pool_of_counts (some : ¬ (a.sampleCount = 0 ∧ b.sampleCount = 0)) :
    a.pool b =
      { sampleCount := a.sampleCount + b.sampleCount
        centrality := (meanOf a.sampleCount b.sampleCount a.centrality b.centrality).clamp
          (a.rangeLow.min b.rangeLow) (a.rangeHigh.max b.rangeHigh)
        spread := pooledSpread a b
        percentiles := joinPercentiles (meanOf a.sampleCount b.sampleCount) a.percentiles
          b.percentiles
        rangeLow := a.rangeLow.min b.rangeLow
        rangeHigh := a.rangeHigh.max b.rangeHigh } := by
  have root : ∀ v : Binary64, Arithmetic.spreadOfSquare v = (v.max (Binary64.zero false)).sqrt :=
    fun _ => rfl
  have sum : ∀ x y : Binary64, Arithmetic.add x y = x.add y := fun _ _ => rfl
  have difference : ∀ x y : Binary64, Arithmetic.sub x y = x.sub y := fun _ _ => rfl
  have count : ∀ n, (Arithmetic.ofCount n : Binary64) = ofNat n := fun _ => rfl
  have clamp : ∀ x y z : Binary64, Arithmetic.clamp x y z = x.clamp y z := fun _ _ _ => rfl
  have low : ∀ x y : Binary64, Arithmetic.min x y = x.min y := fun _ _ => rfl
  have high : ∀ x y : Binary64, Arithmetic.max x y = x.max y := fun _ _ => rfl
  rw [pool, if_neg some, pooledSpread]
  simp only [root, sum, difference, count, clamp, low, high, weighted_shares_eq]

/-- With samples the pooled spread is that root. -/
theorem spread_pool_eq_root (some : ¬ (a.sampleCount = 0 ∧ b.sampleCount = 0)) :
    (a.pool b).spread = pooledSpread a b := by
  rw [pool_of_counts some]

/-- Pooled percentiles are joined, by the greater value without samples and
else by the mean. -/
theorem exists_value_pool_eq {c : Centile Binary64} (h : c ∈ (a.pool b).percentiles) :
    ∃ x ∈ a.percentiles, ∃ y ∈ b.percentiles,
      (a.sampleCount = 0 ∧ b.sampleCount = 0) ∧ c.value = Binary64.max x.value y.value ∨
      ¬ (a.sampleCount = 0 ∧ b.sampleCount = 0) ∧
        c.value = meanOf a.sampleCount b.sampleCount x.value y.value := by
  by_cases empty : a.sampleCount = 0 ∧ b.sampleCount = 0
  · rw [pool, if_pos empty] at h
    obtain ⟨x, hx, y, hy, value⟩ := exists_of_mem_joinPercentiles h
    exact ⟨x, hx, y, hy, Or.inl ⟨empty, value⟩⟩
  · rw [pool_of_counts empty] at h
    obtain ⟨x, hx, y, hy, value⟩ := exists_of_mem_joinPercentiles h
    exact ⟨x, hx, y, hy, Or.inr ⟨empty, value⟩⟩

/-- The pooled spread is not below zero. -/
theorem spread_pool_nonneg (ha : a.Accepted) (hb : b.Accepted) :
    (a.pool b).spread.lt (Binary64.zero false) = false := by
  by_cases empty : a.sampleCount = 0 ∧ b.sampleCount = 0
  · have finite := ha.finite a.spread (by simp [values])
    have finite' := hb.finite b.spread (by simp [values])
    rw [spread_pool_eq_max empty]
    rcases (max_spec finite finite').1 with left | right
    · rw [left]
      exact ha.spread_nonneg
    · rw [right]
      exact hb.spread_nonneg
  · rw [spread_pool_eq_root empty, pooledSpread]
    exact sqrt_max_zero_nonneg _

/-- Merging accepted distributions keeps every rule but perhaps that spread and
percentiles are finite. -/
theorem ordered_pool (ha : a.Accepted) (hb : b.Accepted) (same : a.sameGrid b = true)
    (fits : a.sampleCount.toNat + b.sampleCount.toNat < 2 ^ 64) : (a.pool b).Ordered := by
  have orderedA := (accepted_iff_ordered.1 ha).1
  have orderedB := (accepted_iff_ordered.1 hb).1
  have low : (a.pool b).rangeLow = Binary64.min a.rangeLow b.rangeLow := (range_pool a b).1
  have high : (a.pool b).rangeHigh = Binary64.max a.rangeHigh b.rangeHigh := (range_pool a b).2
  have grid := grid_pool same
  have size := length_percentiles_of_grid_eq grid
  have finiteLow : (a.pool b).rangeLow.isFinite = true :=
    low ▸ isFinite_min orderedA.finite_low orderedB.finite_low
  have finiteHigh : (a.pool b).rangeHigh.isFinite = true :=
    high ▸ isFinite_max orderedA.finite_high orderedB.finite_high
  have range : (a.pool b).rangeLow.le (a.pool b).rangeHigh = true := by
    rw [low, high]
    have below := (min_spec orderedA.finite_low orderedB.finite_low).2.1
    have above := (max_spec orderedA.finite_high orderedB.finite_high).2.1
    exact le_trans (le_trans below (le_trans orderedA.low_le orderedA.le_high)) above
  obtain ⟨x, defined, centre⟩ :=
    exists_centrality_pool_eq orderedA.finite_centrality orderedB.finite_centrality fits
  obtain ⟨finite, above, below⟩ := clamp_between defined finiteLow finiteHigh range
  exact
    { finite_centrality := centre ▸ finite
      finite_low := finiteLow
      finite_high := finiteHigh
      spread_nonneg := spread_pool_nonneg ha hb
      low_le := centre ▸ above
      le_high := centre ▸ below
      two_le := size ▸ ha.two_le
      probabilities := grid ▸ ha.probabilities
      increasing := grid ▸ ha.increasing }

/-- Of two distributions without samples the pooled spread and percentiles are finite. -/
theorem isFinite_pool_of_empty (ha : a.Accepted) (hb : b.Accepted)
    (empty : a.sampleCount = 0 ∧ b.sampleCount = 0) :
    (a.pool b).spread.isFinite = true ∧
      ∀ c ∈ (a.pool b).percentiles, c.value.isFinite = true := by
  obtain ⟨_, spreadA, pointsA⟩ := accepted_iff_ordered.1 ha
  obtain ⟨_, spreadB, pointsB⟩ := accepted_iff_ordered.1 hb
  refine ⟨spread_pool_eq_max empty ▸ isFinite_max spreadA spreadB, fun c hc => ?_⟩
  obtain ⟨x, hx, y, hy, ⟨_, value⟩ | ⟨some, _⟩⟩ := exists_value_pool_eq hc
  · rw [value]
    exact isFinite_max (pointsA x hx) (pointsB y hy)
  · exact absurd empty some

/-- Of distributions whose numbers are not too large for their squares the
pooled spread and percentiles are finite. -/
theorem isFinite_pool_of_within {k : Nat} (some : ¬ (a.sampleCount = 0 ∧ b.sampleCount = 0))
    (fits : a.sampleCount.toNat + b.sampleCount.toNat < 2 ^ 64)
    (small : ∀ x ∈ a.values ++ b.values, x.Within (2 ^ k))
    (room : (k + 2) + (k + 2) + 3 ≤ limitExponent + unitExponent) :
    (a.pool b).spread.isFinite = true ∧
      ∀ c ∈ (a.pool b).percentiles, c.value.isFinite = true := by
  obtain ⟨j, square, large, end'⟩ : ∃ j, (k + 2) + (k + 2) ≤ j + unitExponent ∧
      k + 2 < limitExponent ∧ j + 1 + 1 < limitExponent := by
    unfold limitExponent unitExponent at *
    exact ⟨2095, by omega, by omega, by omega⟩
  have share := within_shareOf some fits
  have rest := within_one_sub_shareOf some fits
  have inA : ∀ x ∈ a.values, x.Within (2 ^ k) := fun x hx => small x (List.mem_append_left _ hx)
  have inB : ∀ x ∈ b.values, x.Within (2 ^ k) := fun x hx => small x (List.mem_append_right _ hx)
  have mean : ∀ x ∈ a.values, ∀ y ∈ b.values,
      (meanOf a.sampleCount b.sampleCount x y).Within (2 ^ (k + 1)) :=
    fun x hx y hy => within_weighted share rest (inA x hx) (inB y hy) (by omega)
  have centre := mean a.centrality (by simp [values]) b.centrality (by simp [values])
  have left := within_pooledPart share (inA a.spread (by simp [values]))
    (inA a.centrality (by simp [values])) centre square large (by omega)
  have right := within_pooledPart rest (inB b.spread (by simp [values]))
    (inB b.centrality (by simp [values])) centre square large (by omega)
  have double : 2 ^ (j + 1) + 2 ^ (j + 1) ≤ 2 ^ (j + 1 + 1) := by
    rw [Nat.pow_succ 2 (j + 1)]
    omega
  have total := left.add right (representable_two_pow end') double
  refine ⟨?_, fun c hc => ?_⟩
  · rw [spread_pool_eq_root some, pooledSpread]
    exact isFinite_sqrt_max_zero total.isFinite
  obtain ⟨x, hx, y, hy, ⟨empty, _⟩ | ⟨_, value⟩⟩ := exists_value_pool_eq hc
  · exact absurd empty some
  · rw [value]
    exact (mean x.value (value_mem_values hx) y.value (value_mem_values hy)).isFinite

/-- A distribution is taken from a written table exactly when it is accepted. -/
theorem ofJson_written_iff {names : List String} {t : DistributionTable names} {name : String}
    {m : Distribution Binary64} (found : t.find? name = some m) :
    ∃ entry, t.toJson.asWritten.get? name = some entry ∧
      ∀ d, Distribution.ofJson entry = .ok d ↔ m.make = .ok d := by
  refine ⟨m.toJson.asWritten, ?_, fun d => ofJson_asWritten_iff⟩
  rw [DistributionTable.get?_asWritten, found, Option.map_some]

/-- What comes of merging two accepted distributions keeps every rule but perhaps
that spread and percentiles are finite. Exactly if they are, it is made again as
it is, and is taken as it is from the JSON value that is written for a table that holds
it. They are finite if there are no samples, and if no member of the two distributions
is beyond `2^500`. -/
theorem merged_valid_iff {a b m : Distribution Binary64} (ha : a.make = .ok a)
    (hb : b.make = .ok b) (merged : a.merge b = .ok m) :
    m.Ordered ∧
      (m.make = .ok m ↔
        m.spread.isFinite = true ∧ ∀ c ∈ m.percentiles, c.value.isFinite = true) ∧
      (∀ (names : List String) (t : DistributionTable names) (name : String),
        t.find? name = some m → ∃ entry, t.toJson.asWritten.get? name = some entry ∧
          ∀ d, Distribution.ofJson entry = .ok d ↔ d = m ∧ m.spread.isFinite = true ∧
            ∀ c ∈ m.percentiles, c.value.isFinite = true) ∧
      ((a.sampleCount = 0 ∧ b.sampleCount = 0 ∨
          ∀ x ∈ a.values ++ b.values, x.Within (2 ^ 500 * unit)) →
        m.spread.isFinite = true ∧ ∀ c ∈ m.percentiles, c.value.isFinite = true) := by
  obtain ⟨_, acceptedA⟩ := make_eq_ok_iff.1 ha
  obtain ⟨_, acceptedB⟩ := make_eq_ok_iff.1 hb
  obtain ⟨same, fits, rfl⟩ := merge_eq_ok_iff.1 merged
  have ordered := ordered_pool acceptedA acceptedB same fits
  have valid : ∀ d, (a.pool b).make = .ok d ↔ d = a.pool b ∧
      (a.pool b).spread.isFinite = true ∧
        ∀ c ∈ (a.pool b).percentiles, c.value.isFinite = true := by
    intro d
    rw [make_eq_ok_iff, accepted_iff_ordered, and_iff_right ordered]
  refine ⟨ordered, ?_, ?_, ?_⟩
  · rw [valid, and_iff_right rfl]
  · intro names t name found
    obtain ⟨entry, member, taken⟩ := ofJson_written_iff found
    exact ⟨entry, member, fun d => (taken d).trans (valid d)⟩
  · by_cases empty : a.sampleCount = 0 ∧ b.sampleCount = 0
    · exact fun _ => isFinite_pool_of_empty acceptedA acceptedB empty
    · rintro (none | small)
      · exact absurd none empty
      · have power : 2 ^ 500 * unit = 2 ^ (500 + unitExponent) := by rw [unit, Nat.pow_add]
        rw [power] at small
        exact isFinite_pool_of_within empty fits small (by decide)

/-- Two constant distributions merge into an accepted one. -/
theorem merged_valid_constant :
    ∃ m, (constant 1 1).make = .ok (constant 1 1) ∧ (constant 1 3).make = .ok (constant 1 3) ∧
      (constant 1 1).merge (constant 1 3) = .ok m ∧ m.make = .ok m := by
  have first : (constant 1 1).make = .ok (constant 1 1) := by decide +kernel
  have second : (constant 1 3).make = .ok (constant 1 3) := by decide +kernel
  have merged : (constant 1 1).merge (constant 1 3) = .ok ((constant 1 1).pool (constant 1 3)) :=
    merge_eq_ok_iff.2 ⟨by decide +kernel, by decide +kernel, rfl⟩
  exact ⟨_, first, second, merged,
    (merged_valid_iff first second merged).2.1.2 ⟨by decide +kernel, by decide +kernel⟩⟩

/-- One sample far from zero, on the grid of 0 and 1. -/
def farSample (negative : Bool) : Distribution Binary64 :=
  let x := (⟨negative, 1, 200⟩ : Decimal).toBinary64
  { sampleCount := 1, centrality := x, spread := Binary64.zero false
    percentiles := [⟨Binary64.zero false, x⟩, ⟨Binary64.ofNat 1, x⟩]
    rangeLow := x, rangeHigh := x }

/-- Two samples so far apart that the square of their distance overflows merge
into a distribution that is rejected, and that is not taken from what is written either. -/
theorem merged_invalid_far_apart :
    ∃ m, (farSample true).make = .ok (farSample true) ∧
      (farSample false).make = .ok (farSample false) ∧
      (farSample true).merge (farSample false) = .ok m ∧ m.spread = .infinite false ∧
      m.make = .error .nonFinite ∧
      ∃ entry, (⟨[m], rfl⟩ : DistributionTable ["far"]).toJson.asWritten.get? "far" = some entry ∧
        ∀ d, Distribution.ofJson entry ≠ .ok d := by
  have merged : (farSample true).merge (farSample false) =
      .ok ((farSample true).pool (farSample false)) :=
    merge_eq_ok_iff.2 ⟨by decide +kernel, by decide +kernel, rfl⟩
  have rejected : ((farSample true).pool (farSample false)).make = .error .nonFinite := by
    decide +kernel
  obtain ⟨entry, member, taken⟩ := @ofJson_written_iff ["far"]
    ⟨[(farSample true).pool (farSample false)], rfl⟩ "far" _ rfl
  refine ⟨_, by decide +kernel, by decide +kernel, merged, by decide +kernel, rejected, entry,
    member, fun d accepted => ?_⟩
  have made := (taken d).1 accepted
  rw [rejected] at made
  cases made

end Distribution

end RunReport
