import RunReport.Proofs.Distribution.Exact
import RunReport.Proofs.Distribution.Neutrality
import RunReport.Proofs.Distribution.Rising
import RunReport.Proofs.Number.Drift

/-!
# Percentiles within the range

The values of a percentile table should lie within the range. A merged centre is kept
there; merged percentiles are not. With samples on both sides they are means whose
weights and parts are rounded, and the mean of a bound with itself can lie beyond the
bound. Means keep the order, so every merged percentile is within the merged range
exactly where the means of its two ends with themselves are. In any case a finite one
leaves the range by one part in `2^51` and two quanta at most.
-/

namespace RunReport.Distribution

open Binary64

/-- The values of the percentiles lie within the range. -/
def Contained (d : Distribution Binary64) : Prop :=
  ∀ c ∈ d.percentiles, d.rangeLow.le c.value = true ∧ c.value.le d.rangeHigh = true

instance : DecidablePred Contained := fun d =>
  inferInstanceAs (Decidable (∀ c ∈ d.percentiles,
    d.rangeLow.le c.value = true ∧ c.value.le d.rangeHigh = true))

variable {m n : UInt64} {low high x y : Binary64}

/-- The weights of a mean are not negative and add up to one but for rounding. -/
theorem toRat_weights (some : ¬ (m = 0 ∧ n = 0)) (fits : m.toNat + n.toNat < 2 ^ 64) :
    0 ≤ (shareOf m n : Binary64).toRat ∧ 0 ≤ ((ofNat 1).sub (shareOf m n)).toRat ∧
      |(shareOf m n : Binary64).toRat + ((ofNat 1).sub (shareOf m n)).toRat - 1| ≤
        roundingPart := by
  obtain ⟨share, rest⟩ := isProbability_shareOf some fits
  obtain ⟨finite, above, below⟩ := isProbability_iff.1 share
  obtain ⟨finite', above', _⟩ := isProbability_iff.1 rest
  have off := abs_toRat_sub_sub_le (by decide +kernel : (ofNat 1).isFinite = true) finite finite'
  rw [toRat_ofNat_one] at off
  generalize ((ofNat 1).sub (shareOf m n)).toRat = r at *
  generalize (shareOf m n : Binary64).toRat = w at *
  refine ⟨above, above', ?_⟩
  have least : |1 - w| ≤ 1 := by
    rw [abs_of_nonneg (by linarith)]
    linarith
  calc |w + r - 1| = |r - (1 - w)| := by rw [sub_sub_eq_add_sub, add_comm]
    _ ≤ roundingPart * |1 - w| := off
    _ ≤ roundingPart := mul_le_of_le_one_right roundingPart_nonneg least

/-- One part in `2^51` of the greater end of a range, and two quanta. -/
def slack (low high : Binary64) : ℚ := Max.max |low.toRat| |high.toRat| / 2 ^ 51 + 2 / unit

/-- There is some slack. -/
theorem slack_nonneg (low high : Binary64) : 0 ≤ slack low high := by
  have scale := unit_pos
  have size : 0 ≤ Max.max |low.toRat| |high.toRat| := (abs_nonneg _).trans (le_max_left _ _)
  unfold slack
  positivity

section Bounds

variable (some : ¬ (m = 0 ∧ n = 0)) (fits : m.toNat + n.toNat < 2 ^ 64)
  (finiteLow : low.isFinite = true) (finiteHigh : high.isFinite = true)
  (finiteX : x.isFinite = true) (finiteY : y.isFinite = true)
  (hx : low.le x = true ∧ x.le high = true) (hy : low.le y = true ∧ y.le high = true)

include some fits finiteLow finiteHigh finiteX finiteY hx hy

/-- The mean of two numbers between bounds lies between the means of the bounds with
themselves. -/
theorem meanOf_between : (meanOf m n low low).le (meanOf m n x y) = true ∧
    (meanOf m n x y).le (meanOf m n high high) = true := by
  have defined := ne_nan_of_isFinite finiteX
  exact ⟨meanOf_mono some fits ⟨ne_nan_of_isFinite finiteLow, defined⟩
      (fun _ => ⟨finiteLow, finiteX⟩) ⟨finiteLow, finiteY⟩ hx.1 hy.1,
    meanOf_mono some fits ⟨defined, ne_nan_of_isFinite finiteHigh⟩
      (fun _ => ⟨finiteX, finiteHigh⟩) ⟨finiteY, finiteHigh⟩ hx.2 hy.2⟩

/-- A finite mean of two numbers between bounds is as near to being between them as rounding
lets it be. -/
theorem toRat_meanOf_near (finite : (meanOf m n x y).isFinite = true) :
    low.toRat - slack low high ≤ (meanOf m n x y).toRat ∧
      (meanOf m n x y).toRat ≤ high.toRat + slack low high := by
  obtain ⟨nonneg, nonneg', whole⟩ := toRat_weights some fits
  obtain ⟨share, rest⟩ := isProbability_shareOf some fits
  have finiteShare := isFinite_of_isProbability share
  have finiteRest := isFinite_of_isProbability rest
  obtain ⟨_, boundX, withinX⟩ := exists_within_of_isFinite finiteX
  obtain ⟨_, boundY, withinY⟩ := exists_within_of_isFinite finiteY
  have left := ((within_shareOf some fits).weigh withinX boundX).isFinite
  have right := ((within_one_sub_shareOf some fits).weigh withinY boundY).isFinite
  rw [meanOf_eq] at finite ⊢
  have hp := abs_toRat_mul_sub_le finiteShare finiteX left
  have hq := abs_toRat_mul_sub_le finiteRest finiteY right
  have hs := abs_toRat_add_sub_le left right finite
  have small : roundingPart ≤ 1 / 16 := by
    unfold roundingPart
    norm_num
  have room : slack low high =
      4 * roundingPart * Max.max |low.toRat| |high.toRat| + 4 * halfQuantum := by
    have scale := unit_pos
    unfold slack roundingPart halfQuantum
    field_simp
    ring
  have lowX := (le_iff_toRat_le finiteLow finiteX).1 hx.1
  have highX := (le_iff_toRat_le finiteX finiteHigh).1 hx.2
  have lowY := (le_iff_toRat_le finiteLow finiteY).1 hy.1
  have highY := (le_iff_toRat_le finiteY finiteHigh).1 hy.2
  have within : ∀ z, low.toRat ≤ z → z ≤ high.toRat → |z| ≤ Max.max |low.toRat| |high.toRat| :=
    fun z => abs_le_max_abs_abs
  rw [room]
  constructor
  · have least := le_mean roundingPart_nonneg small halfQuantum_nonneg nonneg nonneg' whole lowX lowY
      (within _ lowX highX) (within _ lowY highY) (le_max_left _ _) hp hq hs
    linarith
  · have most := mean_le roundingPart_nonneg small halfQuantum_nonneg nonneg nonneg' whole highX
      highY (within _ lowX highX) (within _ lowY highY) (le_max_right _ _) hp hq hs
    linarith

end Bounds

/-- A mean with a number of no weight is within bounds that the other number keeps. -/
theorem meanOf_between_of_empty (none : m = 0 ∨ n = 0) (some : ¬ (m = 0 ∧ n = 0))
    (finiteX : x.isFinite = true) (finiteY : y.isFinite = true)
    (hx : low.le x = true ∧ x.le high = true) (hy : low.le y = true ∧ y.le high = true) :
    low.le (meanOf m n x y) = true ∧ (meanOf m n x y).le high = true := by
  have moved : ∀ {u v : Binary64}, u.place = v.place → low.le v = true ∧ v.le high = true →
      low.le u = true ∧ u.le high = true := by
    intro u v same inside
    unfold le at inside ⊢
    rwa [same]
  by_cases left : m = 0
  · have right : n ≠ 0 := fun right => some ⟨left, right⟩
    rw [left]
    exact moved (place_meanOf_zero_left right finiteX) hy
  · rw [none.resolve_left left, meanOf_zero_right left]
    exact moved (place_meanOf_zero_left left finiteY) hx

/-- The greater of two numbers between bounds is between them. -/
theorem max_between (finiteX : x.isFinite = true) (finiteY : y.isFinite = true)
    (hx : low.le x = true ∧ x.le high = true) (hy : low.le y = true ∧ y.le high = true) :
    low.le (x.max y) = true ∧ (x.max y).le high = true := by
  rcases (max_spec finiteX finiteY).1 with left | right
  · rwa [left]
  · rwa [right]

/-- Two accepted distributions merge whose percentiles lie within their ranges. -/
structure ContainedMerge (a b d : Distribution Binary64) : Prop where
  /-- The first is accepted. -/
  made_left : a.make = .ok a
  /-- The second is accepted. -/
  made_right : b.make = .ok b
  /-- The percentiles of the first are within its range. -/
  contained_left : a.Contained
  /-- The percentiles of the second are within its range. -/
  contained_right : b.Contained
  /-- They merge. -/
  merged : a.merge b = .ok d

/-- Nothing is averaged, or the means of two bounds with themselves stay within them. -/
def MeansStay (m n : UInt64) (low high : Binary64) : Prop :=
  m = 0 ∨ n = 0 ∨ low.le (meanOf m n low low) = true ∧ (meanOf m n high high).le high = true

instance (m n : UInt64) (low high : Binary64) : Decidable (MeansStay m n low high) :=
  inferInstanceAs (Decidable (m = 0 ∨ n = 0 ∨
    low.le (meanOf m n low low) = true ∧ (meanOf m n high high).le high = true))

namespace ContainedMerge

variable {a b d : Distribution Binary64} (h : ContainedMerge a b d)

include h

/-- The ends of the merged range are finite and in order, and the counts fit. -/
theorem bounds : d.rangeLow.isFinite = true ∧ d.rangeHigh.isFinite = true ∧
    d.rangeLow.le d.rangeHigh = true ∧ a.sampleCount.toNat + b.sampleCount.toNat < 2 ^ 64 := by
  obtain ⟨_, acceptedA⟩ := make_eq_ok_iff.1 h.made_left
  obtain ⟨_, acceptedB⟩ := make_eq_ok_iff.1 h.made_right
  obtain ⟨same, fits, rfl⟩ := merge_eq_ok_iff.1 h.merged
  have ordered := ordered_pool acceptedA acceptedB same fits
  exact ⟨ordered.finite_low, ordered.finite_high, le_trans ordered.low_le ordered.le_high, fits⟩

/-- A merged percentile joins two values that are finite and within the merged range. -/
theorem exists_value {c : Centile Binary64} (hc : c ∈ d.percentiles) :
    ∃ x y : Binary64, (x.isFinite = true ∧ d.rangeLow.le x = true ∧ x.le d.rangeHigh = true) ∧
      (y.isFinite = true ∧ d.rangeLow.le y = true ∧ y.le d.rangeHigh = true) ∧
      ((a.sampleCount = 0 ∧ b.sampleCount = 0) ∧ c.value = Binary64.max x y ∨
        ¬ (a.sampleCount = 0 ∧ b.sampleCount = 0) ∧
          c.value = meanOf a.sampleCount b.sampleCount x y) := by
  obtain ⟨_, acceptedA⟩ := make_eq_ok_iff.1 h.made_left
  obtain ⟨_, acceptedB⟩ := make_eq_ok_iff.1 h.made_right
  have orderedA := (accepted_iff_ordered.1 acceptedA).1
  have orderedB := (accepted_iff_ordered.1 acceptedB).1
  obtain ⟨_, _, rfl⟩ := merge_eq_ok_iff.1 h.merged
  have low := min_spec orderedA.finite_low orderedB.finite_low
  have high := max_spec orderedA.finite_high orderedB.finite_high
  have lowEq : (a.pool b).rangeLow = a.rangeLow.min b.rangeLow := (range_pool a b).1
  have highEq : (a.pool b).rangeHigh = a.rangeHigh.max b.rangeHigh := (range_pool a b).2
  obtain ⟨x, hx, y, hy, joined⟩ := exists_value_pool_eq hc
  rw [lowEq, highEq]
  refine ⟨x.value, y.value, ⟨acceptedA.isFinite_value hx, ?_, ?_⟩,
    ⟨acceptedB.isFinite_value hy, ?_, ?_⟩, joined⟩
  · exact le_trans low.2.1 (h.contained_left x hx).1
  · exact le_trans (h.contained_left x hx).2 high.2.1
  · exact le_trans low.2.2 (h.contained_right y hy).1
  · exact le_trans (h.contained_right y hy).2 high.2.2

/-- Where the means of the ends of the range stay in it, the merged percentiles do. -/
theorem contained (stay : MeansStay a.sampleCount b.sampleCount d.rangeLow d.rangeHigh) :
    d.Contained := by
  obtain ⟨finiteLow, finiteHigh, _, fits⟩ := h.bounds
  intro c hc
  obtain ⟨x, y, ⟨finiteX, hx⟩, ⟨finiteY, hy⟩, ⟨_, value⟩ | ⟨some, value⟩⟩ := h.exists_value hc
  · rw [value]
    exact max_between finiteX finiteY hx hy
  · rw [value]
    have between := meanOf_between some fits finiteLow finiteHigh finiteX finiteY hx hy
    by_cases none : a.sampleCount = 0 ∨ b.sampleCount = 0
    · exact meanOf_between_of_empty none some finiteX finiteY hx hy
    · obtain ⟨left, right⟩ := not_or.1 none
      obtain ⟨low, high⟩ := (stay.resolve_left left).resolve_left right
      exact ⟨le_trans low between.1, le_trans between.2 high⟩

/-- In any case a finite merged percentile is in the merged range, but for some slack. -/
theorem near {c : Centile Binary64} (hc : c ∈ d.percentiles) (finite : c.value.isFinite = true) :
    d.rangeLow.toRat - slack d.rangeLow d.rangeHigh ≤ c.value.toRat ∧
      c.value.toRat ≤ d.rangeHigh.toRat + slack d.rangeLow d.rangeHigh := by
  obtain ⟨finiteLow, finiteHigh, _, fits⟩ := h.bounds
  obtain ⟨x, y, ⟨finiteX, hx⟩, ⟨finiteY, hy⟩, ⟨_, value⟩ | ⟨some, value⟩⟩ := h.exists_value hc
  · have inside : d.rangeLow.le c.value = true ∧ c.value.le d.rangeHigh = true :=
      value ▸ max_between finiteX finiteY hx hy
    have lower := (le_iff_toRat_le finiteLow finite).1 inside.1
    have upper := (le_iff_toRat_le finite finiteHigh).1 inside.2
    have room := slack_nonneg d.rangeLow d.rangeHigh
    constructor <;> linarith
  · rw [value] at finite ⊢
    exact toRat_meanOf_near some fits finiteLow finiteHigh finiteX finiteY hx hy finite

end ContainedMerge

/-- Samples from a low to a high value, on the grid of 0 and 1. -/
def span (count : UInt64) (low high : Binary64) : Distribution Binary64 :=
  { sampleCount := count, centrality := low, spread := Binary64.zero false
    percentiles := [⟨Binary64.zero false, low⟩, ⟨ofNat 1, high⟩]
    rangeLow := low, rangeHigh := high }

section Span

variable (finiteLow : low.isFinite = true) (finiteHigh : high.isFinite = true)
  (ordered : low.le high = true)

include finiteLow finiteHigh ordered

/-- Samples between finite numbers in order are accepted. -/
theorem span_accepted (count : UInt64) : (span count low high).Accepted := by
  have zeroFinite : (Binary64.zero false).isFinite = true := rfl
  have grid : (span count low high).grid = [Binary64.zero false, ofNat 1] := by
    simp only [Distribution.grid, span, List.map_cons, List.map_nil]
  exact
    { finite := by simp [values, span, finiteLow, finiteHigh, zeroFinite]
      spread_nonneg := (by decide +kernel : (Binary64.zero false).lt (Binary64.zero false) = false)
      low_le := le_self_of_isFinite finiteLow
      le_high := ordered
      two_le := Nat.le_refl 2
      probabilities := by
        rw [grid]
        decide +kernel
      increasing := by
        rw [grid]
        decide +kernel }

/-- Their percentiles lie within the range. -/
theorem span_contained (count : UInt64) : (span count low high).Contained := by
  intro c hc
  change low.le c.value = true ∧ c.value.le high = true
  rcases List.mem_cons.1 hc with rfl | hc
  · exact ⟨le_self_of_isFinite finiteLow, ordered⟩
  · rw [List.mem_singleton.1 hc]
    exact ⟨ordered, le_self_of_isFinite finiteHigh⟩

/-- Two of them merge. -/
theorem span_merge (fits : m.toNat + n.toNat < 2 ^ 64) :
    ContainedMerge (span m low high) (span n low high)
      ((span m low high).pool (span n low high)) := by
  have left := span_accepted finiteLow finiteHigh ordered m
  have right := span_accepted finiteLow finiteHigh ordered n
  have grids : (span m low high).sameGrid (span n low high) = true :=
    (sameGrid_congr_left rfl _).trans right.sameGrid_self
  exact
    { made_left := make_eq_ok_iff.2 ⟨rfl, left⟩
      made_right := make_eq_ok_iff.2 ⟨rfl, right⟩
      contained_left := span_contained finiteLow finiteHigh ordered m
      contained_right := span_contained finiteLow finiteHigh ordered n
      merged := merge_eq_ok_iff.2 ⟨grids, fits, rfl⟩ }

omit finiteLow finiteHigh ordered in
/-- The range stays as it is. -/
theorem span_pool_range :
    ((span m low high).pool (span n low high)).rangeLow = low ∧
      ((span m low high).pool (span n low high)).rangeHigh = high := by
  have least : low.min low = low := by
    unfold Binary64.min
    split <;> simp
  have greatest : high.max high = high := by
    unfold Binary64.max
    split <;> simp
  obtain ⟨lower, upper⟩ := range_pool (span m low high) (span n low high)
  exact ⟨lower.trans least, upper.trans greatest⟩

omit finiteLow finiteHigh ordered in
/-- If their merged percentiles are within the range, so are the means of its ends. -/
theorem meansStay_of_span
    (contained : ((span m low high).pool (span n low high)).Contained) :
    MeansStay m n low high := by
  by_cases none : m = 0 ∨ n = 0
  · exact none.imp_right Or.inl
  · obtain ⟨left, right⟩ := not_or.1 none
    obtain ⟨lower, upper⟩ := @span_pool_range m n low high
    have joined := percentiles_pool_of_counts (a := span m low high) (b := span n low high)
      fun empty => left empty.1
    simp only [span, joinPercentiles, List.zipWith_cons_cons, List.zipWith_nil_left] at joined
    have first := contained ⟨Binary64.zero false, meanOf m n low low⟩ (joined ▸ by simp)
    have last := contained ⟨ofNat 1, meanOf m n high high⟩ (joined ▸ by simp)
    rw [lower] at first
    rw [upper] at last
    exact Or.inr (Or.inr ⟨first.1, last.2⟩)

end Span

/-- Let two accepted distributions merge whose percentiles lie within their ranges. All
such pairs of the same counts and the same merged range have their merged percentiles
within it exactly when one side has no samples or the means of the ends of the range with
themselves stay in it. Otherwise too each finite merged percentile is within the range but
for one part in `2^51` of its ends and two quanta. -/
theorem merged_percentiles_contained_iff {a b d : Distribution Binary64}
    (h : ContainedMerge a b d) :
    ((∀ a' b' d', ContainedMerge a' b' d' → a'.sampleCount = a.sampleCount →
        b'.sampleCount = b.sampleCount → d'.rangeLow = d.rangeLow → d'.rangeHigh = d.rangeHigh →
          d'.Contained) ↔
      MeansStay a.sampleCount b.sampleCount d.rangeLow d.rangeHigh) ∧
    ∀ c ∈ d.percentiles, c.value.isFinite = true →
      d.rangeLow.toRat - slack d.rangeLow d.rangeHigh ≤ c.value.toRat ∧
        c.value.toRat ≤ d.rangeHigh.toRat + slack d.rangeLow d.rangeHigh := by
  obtain ⟨finiteLow, finiteHigh, ordered, fits⟩ := h.bounds
  refine ⟨⟨fun all => ?_, ?_⟩, fun c => h.near⟩
  · have merge := span_merge (m := a.sampleCount) (n := b.sampleCount) finiteLow finiteHigh ordered
      fits
    obtain ⟨lower, upper⟩ := @span_pool_range a.sampleCount b.sampleCount d.rangeLow d.rangeHigh
    exact meansStay_of_span (all _ _ _ merge rfl rfl lower upper)
  · intro stay a' b' d' h' countA countB lower upper
    exact h'.contained (by rwa [countA, countB, lower, upper])

/-- Equal populations stay in the range, with the means of its ends. -/
theorem merged_percentiles_contained_ramps :
    ContainedMerge (ramp 1 3) (ramp 1 5) ((ramp 1 3).pool (ramp 1 5)) ∧
      MeansStay 1 1 (Binary64.zero false) (ofNat 5) ∧
        ((ramp 1 3).pool (ramp 1 5)).Contained := by
  have h : ContainedMerge (ramp 1 3) (ramp 1 5) ((ramp 1 3).pool (ramp 1 5)) :=
    { made_left := by decide +kernel
      made_right := by decide +kernel
      contained_left := by decide +kernel
      contained_right := by decide +kernel
      merged := merge_eq_ok_iff.2 ⟨by decide +kernel, by decide +kernel, rfl⟩ }
  have stay : MeansStay 1 1 (Binary64.zero false) (ofNat 5) := by decide +kernel
  have range : ((ramp 1 3).pool (ramp 1 5)).rangeLow = Binary64.zero false ∧
      ((ramp 1 3).pool (ramp 1 5)).rangeHigh = ofNat 5 := by decide +kernel
  exact ⟨h, stay, (merged_percentiles_contained_iff h).1.2
    (by rw [range.1, range.2]; exact stay) _ _ _ h rfl rfl rfl rfl⟩

/-- One sample and four samples that are all at three merge to percentiles above three. -/
theorem merged_percentiles_above_range :
    ContainedMerge (constant 1 3) (constant 4 3) ((constant 1 3).pool (constant 4 3)) ∧
      ((constant 1 3).pool (constant 4 3)).rangeHigh = ofNat 3 ∧
      ∀ c ∈ ((constant 1 3).pool (constant 4 3)).percentiles, (ofNat 3).lt c.value = true :=
  ⟨{ made_left := by decide +kernel
     made_right := by decide +kernel
     contained_left := by decide +kernel
     contained_right := by decide +kernel
     merged := merge_eq_ok_iff.2 ⟨by decide +kernel, by decide +kernel, rfl⟩ },
    by decide +kernel, by decide +kernel⟩

end RunReport.Distribution
