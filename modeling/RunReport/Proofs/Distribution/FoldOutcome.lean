import Mathlib.Algebra.Order.Field.Basic
import Mathlib.Data.List.Induction
import RunReport.Proofs.Distribution.FoldOrder
import RunReport.Proofs.Distribution.Validity
import RunReport.Proofs.Number.Value

/-!
# What a merge from left to right comes to

Accepted distributions merge exactly when there are some, every grid agrees with
the first one, and the total count fits 64 bits. What they come to, after each
step and at the end, has the sum of the counts, the first grid, the range that
reaches from the least to the greatest value, and a centre in that range. A merge
that is refused stops at the first distribution that is on another grid or makes
the count too large, and it is the grid that is reported if both are wrong.
-/

namespace RunReport

namespace Distribution

open Binary64

variable {α : Type} [Arithmetic α]

/-- A merge from left to right is refused by the first distribution that does not
merge with what those before it come to. -/
theorem mergeAll_eq_error_iff {first : Distribution α} {rest : List (Distribution α)}
    {refusal : MergeRefusal α} :
    mergeAll (first :: rest) = .error refusal ↔ ∃ before d after merged,
      rest = before ++ d :: after ∧ mergeAll (first :: before) = .ok merged ∧
        merged.merge d = .error refusal := Traversal.foldlM_eq_error_iff

/-- The grids agree: they have as many probabilities, and those at the same place
are no more than the tolerance apart. -/
def SameGrid (a b : Distribution Binary64) : Prop :=
  List.Forall₂ (fun p q : Binary64 => (p.sub q).abs.le gridTolerance = true) a.grid b.grid

instance (a b : Distribution Binary64) : Decidable (a.SameGrid b) :=
  decidable_of_iff (a.sameGrid b = true) sameGrid_iff

/-- A distance of whole quanta is rounded to at most the tolerance if it is at most
`10^-12`, and only if it is at most `10^-12 + 10^-28`. -/
theorem rounded_le_tolerance {n : Nat} :
    (n * 10 ^ 12 ≤ unit → rounded n 1 ≤ rounded unit (10 ^ 12)) ∧
      (rounded n 1 ≤ rounded unit (10 ^ 12) → n * 10 ^ 28 ≤ (10 ^ 16 + 1) * unit) := by
  refine ⟨fun close => rounded_mono Nat.one_pos (by decide) (by omega), fun small => ?_⟩
  by_contra far
  have beyond : rounded unit (10 ^ 12) < rounded ((10 ^ 16 + 1) * unit / 10 ^ 28) 1 := by
    decide +kernel
  have more : (10 ^ 16 + 1) * unit / 10 ^ 28 ≤ n :=
    (Nat.div_le_iff_le_mul_add_pred (by decide)).2 (by omega)
  have larger := rounded_mono Nat.one_pos Nat.one_pos (Nat.mul_le_mul_right 1 more)
  omega

/-- The distance of two finite numbers, as it is rounded, is compared in quanta. -/
theorem abs_sub_le_iff {p q t : Binary64} {j k : ℤ} {bound : ℕ} (hp : p.isFinite = true)
    (hq : q.isFinite = true) (placeP : p.place = some j) (placeQ : q.place = some k)
    (placeT : t.place = some (bound : ℤ)) (small : bound < limit) :
    (p.sub q).abs.le t = true ↔ rounded (j - k).natAbs 1 ≤ bound := by
  cases p with
  | infinite negative => cases hp
  | nan => cases hp
  | finite s m onGrid =>
    cases q with
    | infinite negative => cases hq
    | nan => cases hq
    | finite u n onGrid' =>
      obtain rfl := Option.some.inj placeP
      obtain rfl := Option.some.inj placeQ
      have opposite : signed (!u) n = -signed u n := by cases u <;> simp [signed]
      have distance : signed s m + signed (!u) n = signed s m - signed u n := by
        rw [opposite, Int.sub_eq_add_neg]
      simp only [sub, neg, add, distance]
      generalize signed s m - signed u n = total
      by_cases none : total = 0
      · subst none
        have nothing : rounded 0 1 = 0 := by decide
        rw [if_pos rfl, Int.natAbs_zero, nothing]
        exact iff_of_true ((le_iff_of_place rfl placeT).2 (Int.natCast_nonneg bound))
          (Nat.zero_le _)
      · rw [if_neg none, ofQuotient, ofSteps]
        by_cases finite : quotientSteps total.natAbs 1 * 2 ^ gridExponent (total.natAbs / 1) < limit
        · rw [dif_pos finite]
          exact (le_iff_of_place rfl placeT).trans Int.ofNat_le
        · rw [dif_neg finite]
          refine iff_of_false (fun below => ?_) (fun below => finite (below.trans_lt small))
          have reached := Int.ofNat_le.1 ((le_iff_of_place rfl placeT).1 below)
          omega

/-- Finite probabilities are the same grid point if their distance in quanta, as it
is rounded, is within the tolerance. -/
theorem sameGridPoint_iff {p q : Binary64} {j k : ℤ} (hp : p.isFinite = true)
    (hq : q.isFinite = true) (placeP : p.place = some j) (placeQ : q.place = some k) :
    sameGridPoint p q = true ↔ rounded (j - k).natAbs 1 ≤ rounded unit (10 ^ 12) := by
  have tolerance : gridTolerance.place = some (rounded unit (10 ^ 12) : ℤ) := by decide +kernel
  have small : rounded unit (10 ^ 12) < limit := by decide +kernel
  exact abs_sub_le_iff hp hq placeP placeQ tolerance small

/-- Probabilities that are no more than `10^-12` apart are the same grid point, and
those that are the same are no more than `10^-12 + 10^-28` apart: the difference
is rounded before it is compared. -/
theorem sameGridPoint_between {p q : Binary64} (hp : p.isFinite = true) (hq : q.isFinite = true) :
    (|p.toRat - q.toRat| ≤ 1 / 10 ^ 12 → sameGridPoint p q = true) ∧
      (sameGridPoint p q = true → |p.toRat - q.toRat| ≤ 1 / 10 ^ 12 + 1 / 10 ^ 28) := by
  obtain ⟨j, placeP, valueP⟩ := exists_place_of_isFinite hp
  obtain ⟨k, placeQ, valueQ⟩ := exists_place_of_isFinite hq
  have positive := unit_pos
  have distance : |p.toRat - q.toRat| = ((j - k).natAbs : ℚ) / unit := by
    rw [valueP, valueQ, ← sub_div, abs_div, abs_of_pos positive, Nat.cast_natAbs]
    push_cast
    rfl
  obtain ⟨close, near⟩ := @rounded_le_tolerance (j - k).natAbs
  rw [sameGridPoint_iff hp hq placeP placeQ, distance]
  refine ⟨fun le => close ?_, fun le => ?_⟩
  · rw [div_le_div_iff₀ positive (by positivity)] at le
    exact_mod_cast le.trans_eq (one_mul _)
  · have cast : ∀ n u : ℕ, n * 10 ^ 28 ≤ (10 ^ 16 + 1) * u →
        (n : ℚ) * 10 ^ 28 ≤ (10 ^ 16 + 1) * u := fun n u h => by exact_mod_cast h
    have bound := cast _ _ (near le)
    rw [div_le_iff₀ positive]
    linarith

/-- Grids agree if their exact probabilities are no more than `10^-12` apart, and
only if they are no more than `10^-12 + 10^-28` apart. -/
theorem sameGrid_between {a b : Distribution Binary64} (ha : a.Accepted) (hb : b.Accepted) :
    (List.Forall₂ (fun p q => |toRat p - toRat q| ≤ 1 / 10 ^ 12) a.grid b.grid → a.SameGrid b) ∧
      (a.SameGrid b →
        List.Forall₂ (fun p q => |toRat p - toRat q| ≤ 1 / 10 ^ 12 + 1 / 10 ^ 28) a.grid b.grid) := by
  have between {p q : Binary64} (inGrids : (p, q) ∈ a.grid.zip b.grid) :=
    sameGridPoint_between (ha.isFinite_grid (List.of_mem_zip inGrids).1)
      (hb.isFinite_grid (List.of_mem_zip inGrids).2)
  unfold SameGrid
  simp only [List.forall₂_iff_zip]
  exact ⟨fun ⟨size, close⟩ => ⟨size, fun inGrids => (between inGrids).1 (close inGrids)⟩,
    fun ⟨size, same⟩ => ⟨size, fun inGrids => (between inGrids).2 (same inGrids)⟩⟩

/-- What comes of merging distributions one after the other. -/
structure Comprises (m : Distribution Binary64) (ds : List (Distribution Binary64)) : Prop where
  /-- The count is the sum of all counts. -/
  count_eq : m.sampleCount.toNat = totalCount ds
  /-- The grid is that of the first distribution. -/
  grid_eq : ds.head?.map grid = some m.grid
  /-- The lower end of the range is one of theirs. -/
  low_mem : m.rangeLow ∈ ds.map (·.rangeLow)
  /-- It is not above any of them. -/
  low_le : ∀ d ∈ ds, m.rangeLow.le d.rangeLow = true
  /-- The upper end of the range is one of theirs. -/
  high_mem : m.rangeHigh ∈ ds.map (·.rangeHigh)
  /-- It is not below any of them. -/
  le_high : ∀ d ∈ ds, d.rangeHigh.le m.rangeHigh = true
  /-- Both ends of the range and the centre are finite. -/
  finite : ∀ x ∈ [m.rangeLow, m.rangeHigh, m.centrality], x.isFinite = true
  /-- The range is not empty. -/
  low_le_high : m.rangeLow.le m.rangeHigh = true
  /-- The centre lies in the range. -/
  between : m.rangeLow.le m.centrality = true ∧ m.centrality.le m.rangeHigh = true

/-- An accepted distribution comprises itself. -/
theorem Accepted.comprises {d : Distribution Binary64} (h : d.Accepted) : d.Comprises [d] := by
  have low : d.rangeLow.isFinite = true := h.finite _ (by simp [values])
  have high : d.rangeHigh.isFinite = true := h.finite _ (by simp [values])
  have centre : d.centrality.isFinite = true := h.finite _ (by simp [values])
  exact
    { count_eq := (Nat.add_zero _).symm
      grid_eq := rfl
      low_mem := List.mem_singleton_self _
      low_le := List.forall_mem_singleton.2 (le_self_of_isFinite low)
      high_mem := List.mem_singleton_self _
      le_high := List.forall_mem_singleton.2 (le_self_of_isFinite high)
      finite := by simp [low, high, centre]
      low_le_high := le_trans h.low_le h.le_high
      between := ⟨h.low_le, h.le_high⟩ }

variable {first m d : Distribution Binary64} {ds : List (Distribution Binary64)}

/-- One more accepted distribution keeps what is said of those before it. -/
theorem Comprises.pool (h : m.Comprises ds) (accepted : d.Accepted) (same : m.sameGrid d = true)
    (fits : m.sampleCount.toNat + d.sampleCount.toNat < 2 ^ 64) :
    (m.pool d).Comprises (ds ++ [d]) := by
  have own := accepted.comprises
  have low : (m.pool d).rangeLow = Binary64.min m.rangeLow d.rangeLow := (range_pool m d).1
  have high : (m.pool d).rangeHigh = Binary64.max m.rangeHigh d.rangeHigh := (range_pool m d).2
  have finite := h.finite
  have finite' := own.finite
  simp only [List.forall_mem_cons] at finite finite'
  obtain ⟨lowM, highM, centreM, _⟩ := finite
  obtain ⟨lowD, highD, centreD, _⟩ := finite'
  obtain ⟨least, lowLeM, lowLeD⟩ := min_spec lowM lowD
  obtain ⟨greatest, highLeM, highLeD⟩ := max_spec highM highD
  rw [← low] at least lowLeM lowLeD
  rw [← high] at greatest highLeM highLeD
  have finiteLow : (m.pool d).rangeLow.isFinite = true := low ▸ isFinite_min lowM lowD
  have finiteHigh : (m.pool d).rangeHigh.isFinite = true := high ▸ isFinite_max highM highD
  have range := le_trans lowLeM (le_trans h.low_le_high highLeM)
  obtain ⟨x, defined, centre⟩ := exists_centrality_pool_eq centreM centreD fits
  obtain ⟨finiteCentre, above, below⟩ := clamp_between defined finiteLow finiteHigh range
  rw [← centre] at finiteCentre above below
  exact
    { count_eq := by
        rw [toNat_sampleCount_pool fits, h.count_eq, totalCount_append, ← own.count_eq]
      grid_eq := by
        rw [grid_pool same, ← h.grid_eq]
        cases ds with
        | nil => exact absurd h.low_mem (by simp)
        | cons first rest => rfl
      low_mem := by
        rcases least with left | right
        · simp [left, h.low_mem]
        · simp [right]
      low_le := fun e he => by
        rcases List.mem_append.1 he with before | last
        · exact le_trans lowLeM (h.low_le e before)
        · exact le_trans lowLeD (own.low_le e last)
      high_mem := by
        rcases greatest with left | right
        · simp [left, h.high_mem]
        · simp [right]
      le_high := fun e he => by
        rcases List.mem_append.1 he with before | last
        · exact le_trans (h.le_high e before) highLeM
        · exact le_trans (own.le_high e last) highLeD
      finite := by simp [finiteLow, finiteHigh, finiteCentre]
      low_le_high := range
      between := ⟨above, below⟩ }

/-- What accepted distributions come to comprises them. -/
theorem comprises_of_mergeAll (accepted : ∀ d ∈ ds, d.Accepted) (merged : mergeAll ds = .ok m) :
    m.Comprises ds := by
  refine mergeAll_induction (motive := fun ds m => m.Comprises ds) (fun d hd => ?_)
    (fun before d hd reached m comprises step => ?_) merged
  · exact (accepted d hd).comprises
  · obtain ⟨same, fits, rfl⟩ := merge_eq_ok_iff.1 step
    exact comprises.pool (accepted d hd) same fits

/-- A merge stops at a distribution: those before it are on the grid of the first
and their count fits, and it is on another grid, or else makes the count too large. -/
structure RefusedAt (first : Distribution Binary64) (before : List (Distribution Binary64))
    (d : Distribution Binary64) (refusal : MergeRefusal Binary64) : Prop where
  /-- Those before it are on the grid of the first. -/
  onGrid : ∀ e ∈ before, first.SameGrid e
  /-- Their count fits. -/
  fits : totalCount (first :: before) < 2 ^ 64
  /-- The grid is reported before the count. -/
  refused : ¬ first.SameGrid d ∧ refusal = .gridMismatch first.grid d.grid ∨
    first.SameGrid d ∧ 2 ^ 64 ≤ totalCount (first :: before) + d.sampleCount.toNat ∧
      refusal = .countOverflow (UInt64.ofNat (totalCount (first :: before))) d.sampleCount

/-- What distributions come to is refused as the first of them is for its grid, and
else for their count. -/
theorem Comprises.merge_eq_error_iff {before : List (Distribution Binary64)}
    {refusal : MergeRefusal Binary64} (h : m.Comprises (first :: before)) :
    m.merge d = .error refusal ↔
      ¬ first.SameGrid d ∧ refusal = .gridMismatch first.grid d.grid ∨
      first.SameGrid d ∧ 2 ^ 64 ≤ totalCount (first :: before) + d.sampleCount.toNat ∧
        refusal = .countOverflow (UInt64.ofNat (totalCount (first :: before))) d.sampleCount := by
  have grid : first.grid = m.grid := Option.some.inj h.grid_eq
  have agrees : first.sameGrid d = true ↔ first.SameGrid d := sameGrid_iff
  rw [Distribution.merge_eq_error_iff, ← sameGrid_congr_left grid, ← grid, ← h.count_eq,
    UInt64.ofNat_toNat, ← Bool.not_eq_true, agrees]

/-- Accepted distributions are refused exactly where one of them is. -/
theorem mergeAll_eq_error_iff_refusedAt {rest : List (Distribution Binary64)}
    {refusal : MergeRefusal Binary64} (accepted : ∀ d ∈ first :: rest, d.Accepted) :
    mergeAll (first :: rest) = .error refusal ↔ ∃ before d after,
      rest = before ++ d :: after ∧ RefusedAt first before d refusal := by
  rw [mergeAll_eq_error_iff]
  refine exists_congr fun before => exists_congr fun d => exists_congr fun after => ?_
  have known : rest = before ++ d :: after → ∀ merged,
      mergeAll (first :: before) = .ok merged → merged.Comprises (first :: before) := by
    rintro rfl merged reached
    refine comprises_of_mergeAll (fun e he => accepted e ?_) reached
    exact List.cons_subset_cons first (List.subset_append_left before _) he
  constructor
  · rintro ⟨merged, split, reached, refused⟩
    obtain ⟨onGrid, fits⟩ := mergeAll_succeeds_iff.1 ⟨merged, reached⟩
    exact ⟨split, fun e he => sameGrid_iff.1 (onGrid e he), fits,
      (known split merged reached).merge_eq_error_iff.1 refused⟩
  · rintro ⟨split, h⟩
    obtain ⟨merged, reached⟩ :=
      mergeAll_succeeds_iff.2 ⟨fun e he => sameGrid_iff.2 (h.onGrid e he), h.fits⟩
    exact ⟨merged, split, reached, (known split merged reached).merge_eq_error_iff.2 h.refused⟩

/-- Accepted distributions merge from left to right exactly when there are some,
every grid agrees with the first one and the total count fits. What they come to,
at the end and after every step, has the total count, the first grid, the range
over all of them, and a centre within it. A merge of some that is refused stops at the
first distribution that is on another grid or makes the count too large. Grids agree
if their probabilities are within `10^-12`, up to the rounding of a difference. -/
theorem mergeAll_outcome (accepted : ∀ d ∈ ds, d.make = .ok d) :
    ((∃ m, mergeAll ds = .ok m) ↔ ∃ first rest, ds = first :: rest ∧
      (∀ d ∈ rest, first.SameGrid d) ∧ totalCount ds < 2 ^ 64) ∧
    (∀ before, before <+: ds → ∀ m, mergeAll before = .ok m → m.Comprises before) ∧
    (∀ refusal, mergeAll ds = .error refusal ↔ ds = [] ∧ refusal = .nothing ∨
      ∃ first before d after, ds = first :: (before ++ d :: after) ∧
        RefusedAt first before d refusal) ∧
    ∀ a ∈ ds, ∀ b ∈ ds,
      (List.Forall₂ (fun p q => |toRat p - toRat q| ≤ 1 / 10 ^ 12) a.grid b.grid → a.SameGrid b) ∧
      (a.SameGrid b → List.Forall₂ (fun p q => |toRat p - toRat q| ≤ 1 / 10 ^ 12 + 1 / 10 ^ 28)
        a.grid b.grid) := by
  have lawful : ∀ d ∈ ds, d.Accepted := fun d hd => (make_eq_ok_iff.1 (accepted d hd)).2
  refine ⟨?_, fun before start m merged => ?_, fun refusal => ?_,
    fun a ha b hb => sameGrid_between (lawful a ha) (lawful b hb)⟩
  · cases ds with
    | nil => exact iff_of_false (by simp [mergeAll]) (by simp)
    | cons first rest =>
      rw [mergeAll_succeeds_iff]
      constructor
      · rintro ⟨onGrid, fits⟩
        exact ⟨first, rest, rfl, fun d hd => sameGrid_iff.1 (onGrid d hd), fits⟩
      · rintro ⟨_, _, split, onGrid, fits⟩
        obtain ⟨rfl, rfl⟩ := List.cons.inj split
        exact ⟨fun d hd => sameGrid_iff.2 (onGrid d hd), fits⟩
  · exact comprises_of_mergeAll (fun d hd => lawful d (start.subset hd)) merged
  · cases ds with
    | nil => simp [mergeAll, eq_comm]
    | cons first rest =>
      rw [mergeAll_eq_error_iff_refusedAt lawful]
      constructor
      · rintro ⟨before, d, after, rfl, h⟩
        exact Or.inr ⟨first, before, d, after, rfl, h⟩
      · rintro (⟨wrong, _⟩ | ⟨_, before, d, after, split, h⟩)
        · cases wrong
        · obtain ⟨rfl, rfl⟩ := List.cons.inj split
          exact ⟨before, d, after, rfl, h⟩

/-- Two levels on one grid merge into what comprises both; of three grids that drift
the last one is refused. -/
theorem mergeAll_outcome_levels :
    (∀ d ∈ [constant 3 1, constant 5 2], d.make = .ok d) ∧ (∀ d ∈ drifting, d.make = .ok d) ∧
      (∃ m, mergeAll [constant 3 1, constant 5 2] = .ok m ∧
        m.Comprises [constant 3 1, constant 5 2]) ∧
      mergeAll drifting = .error (.gridMismatch (onePoint ⟨false, 5, -1⟩).grid
        (onePoint ⟨false, 5000000000016, -13⟩).grid) := by
  have levels : ∀ d ∈ [constant 3 1, constant 5 2], d.make = .ok d := by decide +kernel
  have drifts : ∀ d ∈ drifting, d.make = .ok d := by decide +kernel
  obtain ⟨merges, comprises, _⟩ := mergeAll_outcome levels
  obtain ⟨m, merged⟩ := merges.2 ⟨_, _, rfl, by decide +kernel, by decide +kernel⟩
  refine ⟨levels, drifts, ⟨m, merged, comprises _ List.prefix_rfl m merged⟩, ?_⟩
  refine ((mergeAll_outcome drifts).2.2.1 _).2 (Or.inr ⟨_, [_], _, [], rfl, ?_⟩)
  exact ⟨by decide +kernel, by decide +kernel, Or.inl ⟨by decide +kernel, rfl⟩⟩

end Distribution

end RunReport
