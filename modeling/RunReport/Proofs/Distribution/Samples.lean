import Mathlib.Algebra.Order.BigOperators.Group.List
import RunReport.Proofs.Distribution.MergeTree

/-!
# Merging is summarising the pooled samples

In exact arithmetic a list of samples is summarised by its length, mean,
population variance, least and greatest value. Merging the summaries of several
lists from left to right gives the summary of all samples together. Lists
without samples may stand anywhere among them and be summarised in any lawful
way: they change the range at most.
-/

namespace RunReport

namespace Samples

/-- The mean of samples. -/
def mean (xs : List ℚ) : ℚ := xs.sum / xs.length

/-- The population variance of samples. -/
def variance (xs : List ℚ) : ℚ := (xs.map fun x => (x - mean xs) ^ 2).sum / xs.length

/-- The sum of the squares of samples. -/
def squares (xs : List ℚ) : ℚ := (xs.map (· ^ 2)).sum

/-- Samples are counted. -/
theorem length_ne_zero {xs : List ℚ} (present : xs ≠ []) : (xs.length : ℚ) ≠ 0 :=
  Nat.cast_ne_zero.2 (mt List.length_eq_zero_iff.1 present)

/-- The mean times the count is the sum. -/
theorem length_mul_mean {xs : List ℚ} (present : xs ≠ []) : xs.length * mean xs = xs.sum :=
  mul_div_cancel₀ _ (length_ne_zero present)

/-- Squared distances from a point, by sum and squares of the samples. -/
theorem sum_sq_sub (xs : List ℚ) (c : ℚ) :
    (xs.map fun x => (x - c) ^ 2).sum = squares xs - 2 * c * xs.sum + xs.length * c ^ 2 := by
  induction xs with
  | nil => simp [squares]
  | cons x xs ih =>
    simp only [squares, List.map_cons, List.sum_cons, List.length_cons, Nat.cast_succ] at ih ⊢
    rw [ih]
    ring

/-- Variance and squared mean make up the mean square. -/
theorem length_mul_variance_add {xs : List ℚ} (present : xs ≠ []) :
    xs.length * (variance xs + mean xs ^ 2) = squares xs := by
  have sum := length_mul_mean present
  rw [mul_add, variance, mul_div_cancel₀ _ (length_ne_zero present), sum_sq_sub, ← sum]
  ring

/-- The variance is not negative. -/
theorem variance_nonneg (xs : List ℚ) : 0 ≤ variance xs := by
  refine div_nonneg (List.sum_nonneg fun y hy => ?_) (Nat.cast_nonneg _)
  obtain ⟨x, _, rfl⟩ := List.mem_map.1 hy
  exact sq_nonneg _

/-- A list with samples has a positive number of them. -/
theorem length_pos {xs : List ℚ} (present : xs ≠ []) : (0 : ℚ) < xs.length :=
  lt_of_le_of_ne (Nat.cast_nonneg _) (length_ne_zero present).symm

/-- The mean is not below a lower bound of the samples. -/
theorem le_mean {xs : List ℚ} (present : xs ≠ []) {low : ℚ} (h : ∀ x ∈ xs, low ≤ x) :
    low ≤ mean xs := by
  have bound := List.card_nsmul_le_sum xs low h
  rw [nsmul_eq_mul] at bound
  rw [mean, le_div_iff₀ (length_pos present), mul_comm]
  exact bound

/-- The mean is not above an upper bound of the samples. -/
theorem mean_le {xs : List ℚ} (present : xs ≠ []) {high : ℚ} (h : ∀ x ∈ xs, x ≤ high) :
    mean xs ≤ high := by
  have bound := List.sum_le_card_nsmul xs high h
  rw [nsmul_eq_mul] at bound
  rw [mean, div_le_iff₀ (length_pos present), mul_comm]
  exact bound

end Samples

namespace Distribution

/-- A distribution has the count, mean and variance of samples. -/
structure Describes (xs : List ℚ) (d : Distribution ℚ) : Prop where
  /-- Its count is theirs. -/
  count : d.sampleCount.toNat = xs.length
  /-- Its centre is their mean. -/
  centre : d.centrality = Samples.mean xs
  /-- Its squared spread is their variance. -/
  square : d.spread = Samples.variance xs

/-- The range of a distribution goes from the least to the greatest sample. -/
structure Spans (xs : List ℚ) (d : Distribution ℚ) : Prop where
  /-- It begins with the least sample. -/
  low : IsLeast {x | x ∈ xs} d.rangeLow
  /-- It ends with the greatest sample. -/
  high : IsGreatest {x | x ∈ xs} d.rangeHigh

/-- A distribution on the grid summarises samples. Without samples any lawful
one of count zero does. -/
inductive Summary (points : List ℚ) : List ℚ → Distribution ℚ → Prop
  /-- No samples. -/
  | unsampled {d : Distribution ℚ} (count : d.sampleCount = 0) (lawful : d.Lawful)
    (onGrid : d.grid = points) : Summary points [] d
  /-- Samples, by count, mean, variance and range. -/
  | sampled {xs : List ℚ} {d : Distribution ℚ} (present : xs ≠ []) (describes : Describes xs d)
    (spans : Spans xs d) (onGrid : d.grid = points) : Summary points xs d

namespace Summary

variable {points xs : List ℚ} {d : Distribution ℚ}

/-- A summary is on the grid. -/
theorem onGrid (h : Summary points xs d) : d.grid = points := by
  cases h with
  | unsampled _ _ onGrid => exact onGrid
  | sampled _ _ _ onGrid => exact onGrid

/-- A summary has the count of the samples. -/
theorem count (h : Summary points xs d) : d.sampleCount.toNat = xs.length := by
  cases h with
  | unsampled count => exact congrArg UInt64.toNat count
  | sampled _ describes => exact describes.count

/-- A summary has its centre in its range. -/
theorem centred (h : Summary points xs d) : d.Centred := by
  cases h with
  | unsampled _ lawful => exact lawful.toCentred
  | sampled present describes spans =>
    exact
      { spread_nonneg := describes.square ▸ Samples.variance_nonneg xs
        low_le := describes.centre ▸ Samples.le_mean present spans.low.2
        le_high := describes.centre ▸ Samples.mean_le present spans.high.2 }

/-- The weighted centre of a summary is the sum of the samples. -/
theorem weight_mul_centrality (h : Summary points xs d) : d.weight * d.centrality = xs.sum := by
  cases h with
  | unsampled count => simp [weight_of_empty count]
  | sampled present describes =>
    rw [weight, describes.count, describes.centre, Samples.length_mul_mean present]

/-- The weighted second moment of a summary is the sum of the samples' squares. -/
theorem weight_mul_secondMoment (h : Summary points xs d) :
    d.weight * d.secondMoment = Samples.squares xs := by
  cases h with
  | unsampled count => simp [weight_of_empty count, Samples.squares]
  | sampled present describes =>
    rw [weight, secondMoment, describes.count, describes.square, describes.centre,
      Samples.length_mul_variance_add present]

end Summary

section Chunks

variable {points : List ℚ} {chunks : List (List ℚ)} {ds : List (Distribution ℚ)}

/-- Summaries have as many samples as the lists together. -/
theorem totalCount_of_summaries (h : List.Forall₂ (Summary points) chunks ds) :
    totalCount ds = chunks.flatten.length := by
  induction h with
  | nil => rfl
  | cons head _ ih =>
    rw [totalCount_cons, List.flatten_cons, List.length_append, head.count, ih]

/-- What each weighted summary adds up from its samples, the summaries together add up from
all samples. -/
theorem weightedSum_of_summaries {f : Distribution ℚ → ℚ} {g : ℚ → ℚ}
    (each : ∀ {xs d}, Summary points xs d → d.weight * f d = (xs.map g).sum)
    (h : List.Forall₂ (Summary points) chunks ds) :
    weightedSum f ds = (chunks.flatten.map g).sum := by
  induction h with
  | nil => rfl
  | cons head _ ih =>
    simp only [weightedSum, List.map_cons, List.sum_cons] at ih ⊢
    rw [List.flatten_cons, List.map_append, List.sum_append, each head, ih]

/-- Weighted centres of summaries add up to the sum of all samples. -/
theorem weightedSum_centrality (h : List.Forall₂ (Summary points) chunks ds) :
    weightedSum centrality ds = chunks.flatten.sum := by
  have sum := weightedSum_of_summaries (g := id)
    (fun summary => by rw [summary.weight_mul_centrality, List.map_id]) h
  rwa [List.map_id] at sum

/-- Weighted second moments of summaries add up to the squares of all samples. -/
theorem weightedSum_secondMoment (h : List.Forall₂ (Summary points) chunks ds) :
    weightedSum secondMoment ds = Samples.squares chunks.flatten :=
  weightedSum_of_summaries (fun summary => summary.weight_mul_secondMoment) h

/-- Sum and squares of samples determine a distribution's mean and variance. -/
theorem Describes.of_sums {xs : List ℚ} {d : Distribution ℚ} (present : xs ≠ [])
    (count : d.sampleCount.toNat = xs.length) (sum : d.weight * d.centrality = xs.sum)
    (moment : d.weight * d.secondMoment = Samples.squares xs) : Describes xs d := by
  have size := Samples.length_ne_zero present
  have weight : d.weight = xs.length := by rw [weight, count]
  rw [weight] at sum moment
  have centre : d.centrality = Samples.mean xs :=
    mul_left_cancel₀ size (sum.trans (Samples.length_mul_mean present).symm)
  have mean := mul_left_cancel₀ size (moment.trans (Samples.length_mul_variance_add present).symm)
  rw [secondMoment, centre] at mean
  exact ⟨count, centre, add_right_cancel mean⟩

/-- Pooled summaries of lists that all have samples span the range of all samples. -/
theorem spans_of_pools {m : Distribution ℚ} (h : List.Forall₂ (Summary points) chunks ds)
    (pools : Pools ds m) (present : ∀ chunk ∈ chunks, chunk ≠ []) : Spans chunks.flatten m := by
  have spans : ∀ chunk ∈ chunks, ∀ d, Summary points chunk d → Spans chunk d := by
    intro chunk hc d summary
    cases summary with
    | unsampled => exact absurd rfl (present _ hc)
    | sampled _ _ spans => exact spans
  constructor
  · constructor
    · obtain ⟨d, hd, low⟩ := pools.low.1
      obtain ⟨chunk, hc, summary⟩ := Traversal.exists_of_mem_right h hd
      have least := (spans chunk hc d summary).low.1
      rw [low] at least
      exact List.mem_flatten.2 ⟨chunk, hc, least⟩
    · intro x hx
      obtain ⟨chunk, hc, hx⟩ := List.mem_flatten.1 hx
      obtain ⟨d, hd, summary⟩ := Traversal.exists_of_mem_left h hc
      have below : m.rangeLow ≤ d.rangeLow := pools.low.2 ⟨d, hd, rfl⟩
      exact below.trans ((spans chunk hc d summary).low.2 hx)
  · constructor
    · obtain ⟨d, hd, high⟩ := pools.high.1
      obtain ⟨chunk, hc, summary⟩ := Traversal.exists_of_mem_right h hd
      have greatest := (spans chunk hc d summary).high.1
      rw [high] at greatest
      exact List.mem_flatten.2 ⟨chunk, hc, greatest⟩
    · intro x hx
      obtain ⟨chunk, hc, hx⟩ := List.mem_flatten.1 hx
      obtain ⟨d, hd, summary⟩ := Traversal.exists_of_mem_left h hc
      have above : d.rangeHigh ≤ m.rangeHigh := pools.high.2 ⟨d, hd, rfl⟩
      exact ((spans chunk hc d summary).high.2 hx).trans above

end Chunks

/-- Centred distributions of one grid merge from left to right into one that
pools them, as long as there is one and the total count fits. -/
theorem exists_mergeAll {ds : List (Distribution ℚ)} {points : List ℚ} (present : ds ≠ [])
    (centred : ∀ d ∈ ds, d.Centred ∧ d.grid = points) (fits : totalCount ds < 2 ^ 64) :
    ∃ m, mergeAll ds = .ok m ∧ Pools ds m := by
  obtain ⟨first, rest, rfl⟩ := List.exists_cons_of_ne_nil present
  have leaves : (MergeTree.fromLeft (.leaf first) rest).leaves = first :: rest :=
    MergeTree.leaves_fromLeft _ _
  obtain ⟨m, hm, -, -, pools⟩ := MergeTree.exists_merged (leaves ▸ centred) (leaves ▸ fits)
  rw [MergeTree.merged_fromLeft] at hm
  exact ⟨m, hm, leaves ▸ pools⟩

/-- In exact arithmetic the merged summaries of several lists of samples, some
of which may be empty, have the count, mean and variance of all samples
together, and their range too when no list is empty. -/
theorem describes_flatten_of_mergeAll {points : List ℚ} {chunks : List (List ℚ)}
    {ds : List (Distribution ℚ)} (summaries : List.Forall₂ (Summary points) chunks ds)
    (present : ∃ chunk ∈ chunks, chunk ≠ []) (fits : chunks.flatten.length < 2 ^ 64) :
    ∃ m, mergeAll ds = .ok m ∧ Describes chunks.flatten m ∧
      ((∀ chunk ∈ chunks, chunk ≠ []) → Spans chunks.flatten m) := by
  obtain ⟨chunk, hc, nonempty⟩ := present
  have samples : chunks.flatten ≠ [] := by
    intro none
    exact nonempty (List.flatten_eq_nil_iff.1 none chunk hc)
  have some : ds ≠ [] := by
    rintro rfl
    obtain ⟨d, hd, _⟩ := Traversal.exists_of_mem_left summaries hc
    exact absurd hd List.not_mem_nil
  have centred : ∀ d ∈ ds, d.Centred ∧ d.grid = points := by
    intro d hd
    obtain ⟨_, _, summary⟩ := Traversal.exists_of_mem_right summaries hd
    exact ⟨summary.centred, summary.onGrid⟩
  have total := totalCount_of_summaries summaries
  obtain ⟨m, hm, pools⟩ := exists_mergeAll some centred (total ▸ fits)
  refine ⟨m, hm, Describes.of_sums samples (pools.count.trans total) ?_ ?_,
    spans_of_pools summaries pools⟩
  · exact pools.centre.weighted.trans (weightedSum_centrality summaries)
  · exact pools.moment.trans (weightedSum_secondMoment summaries)

/-- Two samples and their range, on the grid of 0 and 1. -/
def pair (low high : ℚ) : Distribution ℚ :=
  { sampleCount := 2, centrality := (low + high) / 2, spread := ((high - low) / 2) ^ 2
    percentiles := [⟨0, low⟩, ⟨1, high⟩], rangeLow := low, rangeHigh := high }

/-- A pair is the summary of its two samples. -/
theorem summary_pair {low high : ℚ} (h : low ≤ high) :
    Summary [0, 1] [low, high] (pair low high) := by
  have mean : Samples.mean [low, high] = (low + high) / 2 := by simp [Samples.mean]
  have variance : Samples.variance [low, high] = ((high - low) / 2) ^ 2 := by
    simp only [Samples.variance, mean, List.map_cons, List.map_nil, List.sum_cons, List.sum_nil,
      List.length_cons, List.length_nil]
    ring
  refine .sampled (List.cons_ne_nil _ _) ⟨rfl, mean.symm, variance.symm⟩ ⟨⟨?_, ?_⟩, ?_, ?_⟩ rfl
  · exact List.mem_cons_self
  · rintro x hx
    rcases List.mem_pair.1 hx with rfl | rfl
    · exact le_refl _
    · exact h
  · exact List.mem_cons_of_mem _ List.mem_cons_self
  · rintro x hx
    rcases List.mem_pair.1 hx with rfl | rfl
    · exact h
    · exact le_refl _

/-- Two pairs of samples with nothing before, between and after them. -/
theorem describes_flatten_of_pairs :
    let nothing := (constant 0 9).exact
    let ds := [nothing, pair 1 3, nothing, pair 5 7, nothing]
    List.Forall₂ (Summary [0, 1]) [[], [1, 3], [], [5, 7], []] ds ∧
      ∃ m, mergeAll ds = .ok m ∧ Describes [1, 3, 5, 7] m := by
  intro nothing ds
  have accepted : (constant 0 9).make = .ok (constant 0 9) := by decide +kernel
  have empty : Summary [0, 1] [] nothing :=
    .unsampled rfl (make_eq_ok_iff.1 accepted).2.lawful_exact (grid_exact_constant 0 9)
  have first : Summary [0, 1] [1, 3] (pair 1 3) := summary_pair (by norm_num)
  have second : Summary [0, 1] [5, 7] (pair 5 7) := summary_pair (by norm_num)
  have summaries : List.Forall₂ (Summary [0, 1]) [[], [1, 3], [], [5, 7], []] ds :=
    .cons empty (.cons first (.cons empty (.cons second (.cons empty .nil))))
  obtain ⟨m, hm, describes, _⟩ := describes_flatten_of_mergeAll summaries
    ⟨[1, 3], by simp, by simp⟩ (by decide)
  exact ⟨summaries, m, hm, describes⟩

example : Samples.mean [1, 3, 5, 7] = 4 ∧ Samples.variance [1, 3, 5, 7] = 5 := by decide +kernel

end Distribution

end RunReport
