import RunReport.Proofs.Distribution.FoldOutcome
import RunReport.Proofs.Number.Neutral
import RunReport.Proofs.Number.Root

/-!
# Merging with a distribution without samples

A distribution without samples has the weight zero. Merged with one that has samples,
in either order, it leaves the count, the centre and the percentiles of that one as
they are, and the range covers both. The spread is squared, and found again from its
square, so it may be lost: its own square may overflow or lose digits near zero, and
zero times the square of the other distribution is undefined, not zero, if that square
overflows. Then the spread becomes zero, as if nothing had been known.
-/

namespace RunReport.Distribution

open Binary64

/-- Nothing is the share of a count of zero. -/
theorem shareOf_zero_left {n : UInt64} (some : n ≠ 0) :
    (shareOf 0 n : Binary64) = Binary64.zero false := by
  have count : 1 ≤ n.toNat := Nat.pos_of_ne_zero fun none => some (UInt64.toNat_inj.1 none)
  obtain ⟨onGrid, total⟩ := ofNat_eq n.toNat_lt (by decide)
  have none : ofNat 0 = Binary64.zero false := by decide +kernel
  rw [shareOf_eq, UInt64.toNat_zero, Nat.zero_add, none, total]
  exact zero_div_finite (rounded_count_pos count).ne'

/-- Everything is the share of a count beside a count of zero. -/
theorem shareOf_zero_right {n : UInt64} (some : n ≠ 0) :
    (shareOf n 0 : Binary64) = ofNat 1 := by
  have count : 1 ≤ n.toNat := Nat.pos_of_ne_zero fun none => some (UInt64.toNat_inj.1 none)
  obtain ⟨onGrid, total⟩ := ofNat_eq n.toNat_lt (by decide)
  rw [shareOf_eq, UInt64.toNat_zero, Nat.add_zero, total]
  exact div_self_finite (rounded_count_pos count).ne'

/-- What nothing leaves of one is one. -/
theorem one_sub_zero : (ofNat 1).sub (Binary64.zero false) = ofNat 1 := by decide +kernel

/-- What one leaves of one is nothing. -/
theorem one_sub_one : (ofNat 1).sub (ofNat 1) = Binary64.zero false :=
  sub_self_of_isFinite (by decide +kernel)

/-- The mean with a number of no weight is at the place of the other number. -/
theorem place_meanOf_zero_left {n : UInt64} {x y : Binary64} (some : n ≠ 0)
    (finite : x.isFinite = true) : (meanOf 0 n x y).place = y.place := by
  obtain ⟨s, nothing⟩ := exists_zero_mul_eq finite
  rw [meanOf, shareOf_zero_left some, one_sub_zero, weighted_eq, nothing, ofNat_one_mul,
    place_zero_add]

/-- The side on which a number of no weight stands does not matter for the mean. -/
theorem meanOf_zero_right {n : UInt64} (some : n ≠ 0) (x y : Binary64) :
    meanOf n 0 y x = meanOf 0 n x y := by
  rw [meanOf, meanOf, shareOf_zero_left some, shareOf_zero_right some, one_sub_zero, one_sub_one,
    weighted_eq, weighted_eq, add_swap]

variable {a b : Distribution Binary64}

/-- Centres at one place give one square. -/
theorem squareAbout_congr (spread centrality : Binary64) {x y : Binary64} (h : x.place = y.place) :
    squareAbout spread centrality x = squareAbout spread centrality y := by
  rw [squareAbout, squareAbout, mul_self_congr (sub_place_congr centrality h)]

/-- The square about the own centre is at the place of the squared spread. -/
theorem place_squareAbout_self (spread : Binary64) {centre : Binary64}
    (finite : centre.isFinite = true) :
    (squareAbout spread centre centre).place = (spread.mul spread).place := by
  have nothing : (Binary64.zero false).mul (Binary64.zero false) = Binary64.zero false := by
    decide +kernel
  rw [squareAbout, sub_self_of_isFinite finite, nothing, add_swap, place_zero_add]

/-- A square of a finite number is not below zero. -/
theorem max_square {x : Binary64} (finite : x.isFinite = true) :
    (x.mul x).max (Binary64.zero false) = x.mul x := by
  cases x with
  | infinite s => cases finite
  | nan => cases finite
  | finite s n onGrid =>
    rw [mul, bne_self_eq_false, ofQuotient, ofSteps]
    split
    · exact max_zero_finite _
    · exact max_zero_infinite

/-- Pooled with a distribution without samples, a spread becomes the root of its square
if the square of that distribution is finite, and else zero. -/
theorem pooledSpread_of_empty (none : a.sampleCount = 0) (some : b.sampleCount ≠ 0)
    (finiteA : a.centrality.isFinite = true) (finiteB : b.centrality.isFinite = true)
    (finite : b.spread.isFinite = true) :
    pooledSpread a b = if (squareAbout a.spread a.centrality b.centrality).isFinite then
      (b.spread.mul b.spread).sqrt else Binary64.zero false := by
  have centre : (meanOf 0 b.sampleCount a.centrality b.centrality).place = b.centrality.place :=
    place_meanOf_zero_left some finiteA
  rw [pooledSpread, none, shareOf_zero_left some, one_sub_zero, pooledPart_eq, pooledPart_eq,
    squareAbout_congr _ _ centre, squareAbout_congr _ _ centre, ofNat_one_mul]
  split
  · rename_i small
    obtain ⟨s, nothing⟩ := exists_zero_mul_eq small
    have place := (place_zero_add s _).trans (place_squareAbout_self b.spread finiteB)
    rw [nothing, max_zero_congr place, max_square finite]
  · rename_i large
    rw [zero_mul_of_not_isFinite (Bool.not_eq_true _ ▸ large)]
    rfl

/-- The side on which a distribution without samples stands does not matter for the spread. -/
theorem pooledSpread_swap (none : a.sampleCount = 0) (some : b.sampleCount ≠ 0) :
    pooledSpread b a = pooledSpread a b := by
  rw [pooledSpread, pooledSpread, none, shareOf_zero_left some, shareOf_zero_right some,
    one_sub_zero, one_sub_one, meanOf_zero_right some, add_swap]

/-- The values of joined percentiles are joined in order. -/
theorem map_value_joinPercentiles (join : Binary64 → Binary64 → Binary64)
    (as bs : List (Centile Binary64)) :
    (joinPercentiles join as bs).map (·.value) =
      List.zipWith join (as.map (·.value)) (bs.map (·.value)) := by
  rw [joinPercentiles, List.map_zipWith, List.zipWith_map]

/-- Joining keeps the right numbers if each pair is joined to the right one. -/
theorem forall₂_zipWith_right {join : Binary64 → Binary64 → Binary64} {xs ys : List Binary64}
    (size : xs.length = ys.length) (kept : ∀ x ∈ xs, ∀ y ∈ ys, (join x y).same y = true) :
    List.Forall₂ (fun x y : Binary64 => x.same y = true) (List.zipWith join xs ys) ys := by
  induction xs generalizing ys with
  | nil =>
    obtain rfl : ys = [] := List.length_eq_zero_iff.1 size.symm
    exact .nil
  | cons x xs ih =>
    cases ys with
    | nil => cases size
    | cons y ys =>
      refine .cons (kept x List.mem_cons_self y List.mem_cons_self) (ih (Nat.succ.inj size) ?_)
      exact fun x' hx y' hy => kept x' (List.mem_cons_of_mem _ hx) y' (List.mem_cons_of_mem _ hy)

/-- A distribution is `b` again, but for its spread and for its range, which covers
that of `a`, too. -/
structure Widened (m b a : Distribution Binary64) : Prop where
  /-- The count is that of `b`. -/
  count_eq : m.sampleCount = b.sampleCount
  /-- The centre is numerically that of `b`. -/
  centrality_same : m.centrality.same b.centrality = true
  /-- The values of the percentiles are numerically those of `b`. -/
  values_same : List.Forall₂ (fun x y : Binary64 => x.same y = true)
    (m.percentiles.map (·.value)) (b.percentiles.map (·.value))
  /-- The lower end of the range is one of both. -/
  low_mem : m.rangeLow = a.rangeLow ∨ m.rangeLow = b.rangeLow
  /-- It is not above either. -/
  low_le : m.rangeLow.le a.rangeLow = true ∧ m.rangeLow.le b.rangeLow = true
  /-- The upper end of the range is one of both. -/
  high_mem : m.rangeHigh = a.rangeHigh ∨ m.rangeHigh = b.rangeHigh
  /-- It is not below either. -/
  le_high : a.rangeHigh.le m.rangeHigh = true ∧ b.rangeHigh.le m.rangeHigh = true

/-- What comprises two distributions, and has the means of both that leave one out, is
the other one widened. -/
theorem Comprises.widened {m : Distribution Binary64} {ds : List (Distribution Binary64)}
    (h : m.Comprises ds) (members : ∀ d, d ∈ ds ↔ d = a ∨ d = b) (ha : a.Accepted)
    (hb : b.Accepted) (some : b.sampleCount ≠ 0)
    (size : a.percentiles.length = b.percentiles.length) (count : m.sampleCount = b.sampleCount)
    (centre : m.centrality = (meanOf 0 b.sampleCount a.centrality b.centrality).clamp
      m.rangeLow m.rangeHigh)
    (values : m.percentiles.map (·.value) = List.zipWith (meanOf 0 b.sampleCount)
      (a.percentiles.map (·.value)) (b.percentiles.map (·.value))) : m.Widened b a := by
  obtain ⟨orderedA, _, pointsA⟩ := accepted_iff_ordered.1 ha
  obtain ⟨orderedB, _, pointsB⟩ := accepted_iff_ordered.1 hb
  have inA : a ∈ ds := (members a).2 (Or.inl rfl)
  have inB : b ∈ ds := (members b).2 (Or.inr rfl)
  have same {x y : Binary64} (hx : x.isFinite = true) (hy : y.isFinite = true) :
      (meanOf 0 b.sampleCount x y).same y = true :=
    (same_iff_place_eq hy).2 (place_meanOf_zero_left some hx)
  obtain ⟨low, hLow, lowEq⟩ := List.mem_map.1 h.low_mem
  obtain ⟨high, hHigh, highEq⟩ := List.mem_map.1 h.high_mem
  refine
    { count_eq := count
      centrality_same := (same_iff_place_eq orderedB.finite_centrality).2 ?_
      values_same := ?_
      low_mem := ?_
      low_le := ⟨h.low_le a inA, h.low_le b inB⟩
      high_mem := ?_
      le_high := ⟨h.le_high a inA, h.le_high b inB⟩ }
  · rw [centre]
    exact place_clamp (place_meanOf_zero_left some orderedA.finite_centrality)
      (le_trans (h.low_le b inB) hb.low_le) (le_trans hb.le_high (h.le_high b inB))
  · rw [values]
    refine forall₂_zipWith_right (by simpa using size) fun x hx y hy => ?_
    obtain ⟨c, hc, rfl⟩ := List.mem_map.1 hx
    obtain ⟨e, he, rfl⟩ := List.mem_map.1 hy
    exact same (pointsA c hc) (pointsB e he)
  · rcases (members low).1 hLow with rfl | rfl
    · exact Or.inl lowEq.symm
    · exact Or.inr lowEq.symm
  · rcases (members high).1 hHigh with rfl | rfl
    · exact Or.inl highEq.symm
    · exact Or.inr highEq.symm

/-- Pooled with a distribution without samples, in either order, a distribution is
widened. -/
theorem widened_pool (ha : a.Accepted) (hb : b.Accepted) (none : a.sampleCount = 0)
    (some : b.sampleCount ≠ 0) (grids : a.sameGrid b = true) :
    (a.pool b).Widened b a ∧ (b.pool a).Widened b a := by
  have left : ¬ (a.sampleCount = 0 ∧ b.sampleCount = 0) := fun h => some h.2
  have right : ¬ (b.sampleCount = 0 ∧ a.sampleCount = 0) := fun h => some h.1
  have fits := b.sampleCount.toNat_lt
  have size : a.percentiles.length = b.percentiles.length := by
    simpa [grid] using (sameGrid_iff.1 grids).length_eq
  constructor
  · refine (ha.comprises.pool hb grids (by simp [none, fits])).widened (by simp) ha hb some size
      ?_ ?_ ?_
    · rw [pool_of_counts left, none, UInt64.zero_add]
    · rw [pool_of_counts left, none]
    · rw [pool_of_counts left, none]
      exact map_value_joinPercentiles _ _ _
  · refine (hb.comprises.pool ha (sameGrid_comm a b ▸ grids) (by simp [none, fits])).widened
      (by simp [or_comm]) ha hb some size ?_ ?_ ?_
    · rw [pool_of_counts right, none, UInt64.add_zero]
    · rw [pool_of_counts right, none, meanOf_zero_right some]
    · have turned : ∀ x y, meanOf b.sampleCount 0 y x = meanOf 0 b.sampleCount x y :=
        meanOf_zero_right some
      rw [pool_of_counts right, none, map_value_joinPercentiles, List.zipWith_comm]
      simp only [turned]

/-- The spread of `b` outlasts a merge with `a`, which has no samples: it is zero; or the
square of `a` about the centre of `b` is finite, and the spread is found again from its
own square. -/
def SpreadOutlasts (a b : Distribution Binary64) : Prop :=
  b.spread.toRat = 0 ∨ (squareAbout a.spread a.centrality b.centrality).isFinite = true ∧
    (b.spread.mul b.spread).sqrt.same b.spread = true

/-- Exactly then the pooled spread is numerically that of `b`. -/
theorem same_pooledSpread_iff (ha : a.Accepted) (hb : b.Accepted) (none : a.sampleCount = 0)
    (some : b.sampleCount ≠ 0) :
    (pooledSpread a b).same b.spread = true ↔ SpreadOutlasts a b := by
  obtain ⟨orderedA, _, _⟩ := accepted_iff_ordered.1 ha
  obtain ⟨orderedB, finite, _⟩ := accepted_iff_ordered.1 hb
  rw [pooledSpread_of_empty none some orderedA.finite_centrality orderedB.finite_centrality finite,
    SpreadOutlasts]
  have nothing : (Binary64.zero false).same b.spread = true ↔ b.spread.toRat = 0 := by
    rw [same_iff_place_eq finite, toRat_eq_zero_iff finite]
    exact eq_comm
  by_cases small : (squareAbout a.spread a.centrality b.centrality).isFinite = true
  · rw [if_pos small, and_iff_right small]
    refine ⟨Or.inr, Or.rec (fun zero => ?_) id⟩
    rw [sqrt_mul_self_of_toRat_eq_zero finite zero]
    exact nothing.2 zero
  · rw [if_neg small, nothing]
    exact ⟨Or.inl, Or.rec id fun other => absurd other.1 small⟩

/-- The spread outlasts the merge if it is not too close to zero and neither its square
nor that of the other distribution is too large. -/
theorem spreadOutlasts_of_bounds (hb : b.Accepted) (large : 1 / 2 ^ 511 ≤ b.spread.toRat)
    (small : b.spread.toRat < 2 ^ 512)
    (near : ∀ x ∈ [a.spread, a.centrality, b.centrality], x.Within (2 ^ 509 * unit)) :
    SpreadOutlasts a b := by
  obtain ⟨_, finite, _⟩ := accepted_iff_ordered.1 hb
  refine Or.inr ⟨?_, sqrt_mul_self_same finite hb.spread_nonneg large small⟩
  have power : 2 ^ 509 * unit = 2 ^ (509 + unitExponent) := by rw [unit, Nat.pow_add]
  rw [power] at near
  simp only [List.forall_mem_cons] at near
  obtain ⟨spread, centre, centre', _⟩ := near
  have room : 2 ^ (509 + unitExponent) ≤ 2 ^ (509 + unitExponent + 1) :=
    Nat.pow_le_pow_right (by decide) (Nat.le_succ _)
  exact (within_squareAbout (j := 2096) spread centre (centre'.mono room) (by decide) (by decide)
    (by decide)).isFinite

/-- A spread that outlasts a merge is zero, or neither too close to zero nor too large. -/
theorem SpreadOutlasts.bounds (h : SpreadOutlasts a b) (hb : b.Accepted) :
    b.spread.toRat = 0 ∨ 1 / 2 ^ 538 < b.spread.toRat ∧ b.spread.toRat < 2 ^ 512 := by
  obtain ⟨_, finite, _⟩ := accepted_iff_ordered.1 hb
  rcases h with zero | ⟨_, same⟩
  · exact Or.inl zero
  · exact bounds_of_sqrt_mul_self_same finite hb.spread_nonneg same

/-- On one grid grids agree. -/
theorem Accepted.sameGrid_of_grid_eq (h : b.Accepted) (same : a.grid = b.grid) : a.SameGrid b :=
  sameGrid_iff.1 ((sameGrid_congr_left same b).trans h.sameGrid_self)

/-- A distribution without samples merges with one that has some if their grids agree,
as equal ones do, and in either order. The latter is kept but for its range, which is
widened, and for its spread, which is not always kept: it is if it is zero, or from
`2^-511` on and below `2^512` with centres and the other spread up to `2^509`, and it is
not if it is `2^-538` or less, or `2^512` or more, or if the square of the distribution
without samples about its centre overflows. -/
theorem merge_with_empty (madeA : a.make = .ok a) (madeB : b.make = .ok b)
    (none : a.sampleCount = 0) (some : b.sampleCount ≠ 0) (grids : a.SameGrid b) :
    (∃ m m', a.merge b = .ok m ∧ b.merge a = .ok m' ∧ m.grid = a.grid ∧ m'.grid = b.grid ∧
      ∀ x ∈ [m, m'], x.Widened b a ∧ (x.spread.same b.spread = true ↔ SpreadOutlasts a b)) ∧
    (1 / 2 ^ 511 ≤ b.spread.toRat → b.spread.toRat < 2 ^ 512 →
      (∀ x ∈ [a.spread, a.centrality, b.centrality], x.Within (2 ^ 509 * unit)) →
        SpreadOutlasts a b) ∧
    (SpreadOutlasts a b →
      b.spread.toRat = 0 ∨ 1 / 2 ^ 538 < b.spread.toRat ∧ b.spread.toRat < 2 ^ 512) := by
  obtain ⟨_, ha⟩ := make_eq_ok_iff.1 madeA
  obtain ⟨_, hb⟩ := make_eq_ok_iff.1 madeB
  refine ⟨?_, spreadOutlasts_of_bounds hb, fun outlasts => outlasts.bounds hb⟩
  have left : a.sameGrid b = true := sameGrid_iff.2 grids
  have right : b.sameGrid a = true := (sameGrid_comm b a).trans left
  have fits := b.sampleCount.toNat_lt
  have merged : a.merge b = .ok (a.pool b) := merge_eq_ok_iff.2 ⟨left, by simp [none, fits], rfl⟩
  have merged' : b.merge a = .ok (b.pool a) := merge_eq_ok_iff.2 ⟨right, by simp [none, fits], rfl⟩
  obtain ⟨widened, widened'⟩ := widened_pool ha hb none some left
  have kept := same_pooledSpread_iff ha hb none some
  refine ⟨_, _, merged, merged', grid_pool left, grid_pool right, ?_⟩
  simp only [List.forall_mem_cons]
  refine ⟨⟨widened, ?_⟩, ⟨widened', ?_⟩, by simp⟩
  · rwa [spread_pool_eq_root fun h => some h.2]
  · rwa [spread_pool_eq_root fun h => some h.1, pooledSpread_swap none some]

/-- Two samples at one with a spread of one, on the grid of 0 and 1. -/
def spreadOut : Distribution Binary64 := { constant 2 1 with spread := ofNat 1 }

/-- A spread of one outlasts a merge with a distribution without samples at nine. -/
theorem merge_with_empty_spreadOut :
    (constant 0 9).make = .ok (constant 0 9) ∧ spreadOut.make = .ok spreadOut ∧
      (constant 0 9).grid = spreadOut.grid ∧
      ∃ m m', (constant 0 9).merge spreadOut = .ok m ∧ spreadOut.merge (constant 0 9) = .ok m' ∧
        ∀ x ∈ [m, m'], x.Widened spreadOut (constant 0 9) ∧
          x.spread.same spreadOut.spread = true := by
  have madeA : (constant 0 9).make = .ok (constant 0 9) := by decide +kernel
  have madeB : spreadOut.make = .ok spreadOut := by decide +kernel
  have grids : (constant 0 9).SameGrid spreadOut :=
    (make_eq_ok_iff.1 madeB).2.sameGrid_of_grid_eq (by decide +kernel)
  obtain ⟨⟨m, m', merged, merged', _, _, kept⟩, outlasts, _⟩ :=
    merge_with_empty madeA madeB rfl (by decide) grids
  have one : spreadOut.spread.toRat = 1 := by simp [spreadOut]
  have near : ∀ k, 4 ≤ k → ∀ x ∈ [(constant 0 9).spread, (constant 0 9).centrality,
      spreadOut.centrality], x.Within (2 ^ k * unit) := by
    intro k large
    have small {n : Nat} (h : n ≤ 2 ^ 4) : (ofNat n).Within (2 ^ k * unit) :=
      (Within.ofNat h (by decide)).mono
        (Nat.mul_le_mul_right unit (Nat.pow_le_pow_right (by decide) large))
    simp only [List.forall_mem_cons, constant, spreadOut]
    exact ⟨Within.zero _ _, small (by decide), small (by decide), by simp⟩
  have spread : SpreadOutlasts (constant 0 9) spreadOut := by
    refine outlasts ?_ ?_ (near 509 (by decide))
    · rw [one]
      exact div_le_one_of_le₀ (one_le_pow₀ one_le_two) (by positivity)
    · rw [one]
      exact one_lt_pow₀ one_lt_two (by decide)
  exact ⟨madeA, madeB, by decide +kernel, m, m', merged, merged', fun x hx =>
    ⟨(kept x hx).1, (kept x hx).2.2 spread⟩⟩

/-- A distribution without samples that is far away takes the spread away. -/
theorem spread_lost_far_away :
    (constant 0 (10 ^ 200)).make = .ok (constant 0 (10 ^ 200)) ∧
      spreadOut.make = .ok spreadOut ∧ (constant 0 (10 ^ 200)).sampleCount = 0 ∧
      spreadOut.sampleCount ≠ 0 ∧ (constant 0 (10 ^ 200)).grid = spreadOut.grid ∧
      ∃ m m', (constant 0 (10 ^ 200)).merge spreadOut = .ok m ∧
        spreadOut.merge (constant 0 (10 ^ 200)) = .ok m' ∧
        ∀ x ∈ [m, m'], x.spread = Binary64.zero false ∧ x.spread.same spreadOut.spread = false := by
  have merged : (constant 0 (10 ^ 200)).merge spreadOut =
      .ok ((constant 0 (10 ^ 200)).pool spreadOut) :=
    merge_eq_ok_iff.2 ⟨by decide +kernel, by decide +kernel, rfl⟩
  have merged' : spreadOut.merge (constant 0 (10 ^ 200)) =
      .ok (spreadOut.pool (constant 0 (10 ^ 200))) :=
    merge_eq_ok_iff.2 ⟨by decide +kernel, by decide +kernel, rfl⟩
  exact ⟨by decide +kernel, by decide +kernel, rfl, by decide, by decide +kernel, _, _, merged,
    merged', by decide +kernel⟩

end RunReport.Distribution
