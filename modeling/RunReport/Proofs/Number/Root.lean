import RunReport.Proofs.Number.Neutral
import RunReport.Proofs.Number.Shortest

/-!
# Roots of squares

A square is rounded by at most half a grid step, which is less than half a step of
the root. So the root of a squared number is that number again, as long as the
square neither overflows, which it does from `2^512` on, nor comes so close to
zero that it loses digits, which it does not down to `2^-511`.
-/

namespace RunReport.Binary64

/-- A quotient is rounded by at most half a grid step. -/
theorem rounded_near {num den e : Nat} (positive : 0 < den) (fine : num < 2 ^ (53 + e) * den) :
    2 * num ≤ 2 * (rounded num den * den) + den * 2 ^ e ∧
      2 * (rounded num den * den) ≤ 2 * num + den * 2 ^ e := by
  have grid : gridExponent (num / den) ≤ e :=
    gridExponent_le_of_lt ((Nat.div_lt_iff_lt_mul positive).2 fine)
  have step : den * 2 ^ gridExponent (num / den) ≤ den * 2 ^ e :=
    Nat.mul_le_mul_left den (Nat.pow_le_pow_right (by decide) grid)
  have near : IsNearest num (den * 2 ^ gridExponent (num / den)) (quotientSteps num den) :=
    isNearest_roundHalfEven (Nat.mul_pos positive (Nat.two_pow_pos _)) num
  have whole : rounded num den * den =
      quotientSteps num den * (den * 2 ^ gridExponent (num / den)) := by
    rw [rounded]
    ring
  have above := near.le_above
  have below := near.below_le
  rw [whole]
  generalize den * 2 ^ gridExponent (num / den) = unit at above below step ⊢
  constructor <;> linarith

/-- A root is rounded to the nearest step of its grid. -/
theorem rootSteps_eq {n s e : Nat} (grid : gridExponent n.sqrt = e)
    (above : ((2 * s + 1) * 2 ^ e) ^ 2 < 4 * n) (below : 4 * n < ((2 * s + 3) * 2 ^ e) ^ 2) :
    rootSteps n = s + 1 := by
  have step := Nat.two_pow_pos e
  unfold rootSteps
  dsimp only
  rw [grid]
  generalize 2 ^ e = step' at *
  have atLeast : s * step' ≤ n.sqrt := by
    have less : (2 * (s * step')) ^ 2 ≤ ((2 * s + 1) * step') ^ 2 :=
      Nat.pow_le_pow_left (by linarith) 2
    rw [Nat.mul_pow] at less
    exact Nat.le_sqrt'.2 (by omega)
  have less : n.sqrt < (s + 2) * step' := by
    have more : ((2 * s + 3) * step') ^ 2 ≤ (2 * ((s + 2) * step')) ^ 2 :=
      Nat.pow_le_pow_left (by linarith) 2
    rw [Nat.mul_pow 2] at more
    exact Nat.sqrt_lt'.2 (by omega)
  have low : n.sqrt / step' = s ∨ n.sqrt / step' = s + 1 := by
    have from_below := (Nat.le_div_iff_mul_le step).2 atLeast
    have from_above := (Nat.div_lt_iff_lt_mul step).2 less
    omega
  rcases low with low | low
  · rw [low, if_neg (Nat.not_lt.2 above.le), if_pos above]
  · have middle : 2 * (s + 1) + 1 = 2 * s + 3 := by ring
    rw [low, middle, if_pos below]

/-- A root that is rounded to a representable count becomes that number. -/
theorem ofRoot_eq_finite {m n : Nat} (onGrid : Representable n)
    (h : rootSteps m * 2 ^ gridExponent m.sqrt = n) : ofRoot m = .finite false n onGrid := by
  subst h
  unfold ofRoot ofSteps
  rw [dif_pos onGrid.1]

/-- The first number of a grid has a square that is not rounded. -/
theorem rounded_square_of_first {e k : Nat} (grid : unit * 2 ^ k = 2 ^ 53 * (2 ^ e * 2 ^ e)) :
    rounded ((2 ^ 52 * 2 ^ e) * (2 ^ 52 * 2 ^ e)) unit * unit =
      (2 ^ 52 * 2 ^ e) * (2 ^ 52 * 2 ^ e) := by
  have square : (2 ^ 52 * 2 ^ e) * (2 ^ 52 * 2 ^ e) = 2 ^ (51 + k) * unit := by
    calc (2 ^ 52 * 2 ^ e) * (2 ^ 52 * 2 ^ e) = 2 ^ 51 * (2 ^ 53 * (2 ^ e * 2 ^ e)) := by ring
      _ = 2 ^ (51 + k) * unit := by
          rw [← grid, Nat.pow_add]
          ring
  have positive : 0 < unit := Nat.two_pow_pos _
  rw [square, rounded_mul (grid_dvd_two_pow _) positive]

/-- A square of 106 bits is rounded by at most half a step of its grid. -/
theorem rounded_square_near {s e k : Nat} (grid : unit * 2 ^ k = 2 ^ 53 * (2 ^ e * 2 ^ e))
    (last : s < 2 ^ 53) :
    2 * ((s * 2 ^ e) * (s * 2 ^ e)) ≤
        2 * (rounded ((s * 2 ^ e) * (s * 2 ^ e)) unit * unit) + 2 ^ 53 * (2 ^ e * 2 ^ e) ∧
      2 * (rounded ((s * 2 ^ e) * (s * 2 ^ e)) unit * unit) ≤
        2 * ((s * 2 ^ e) * (s * 2 ^ e)) + 2 ^ 53 * (2 ^ e * 2 ^ e) := by
  have step : 0 < 2 ^ e * 2 ^ e := Nat.mul_pos (Nat.two_pow_pos e) (Nat.two_pow_pos e)
  have fine : (s * 2 ^ e) * (s * 2 ^ e) < 2 ^ (53 + k) * unit := by
    have size : s * s < 2 ^ 53 * 2 ^ 53 := Nat.mul_self_lt_mul_self last
    calc (s * 2 ^ e) * (s * 2 ^ e) = (s * s) * (2 ^ e * 2 ^ e) := by ring
      _ < (2 ^ 53 * 2 ^ 53) * (2 ^ e * 2 ^ e) := (Nat.mul_lt_mul_right step).2 size
      _ = 2 ^ 53 * (unit * 2 ^ k) := by rw [grid, Nat.mul_assoc]
      _ = 2 ^ (53 + k) * unit := by
          rw [Nat.pow_add]
          ring
  have near := rounded_near (Nat.two_pow_pos _) fine
  rwa [← unit, grid] at near

/-- The square of a number of 53 bits, rounded to 53 bits, lies between the squares
of half a step less and half a step more. The first number of a grid needs no rounding;
for all others half a step of the square is less than half a step of the number. -/
theorem rounded_square_between {s e : Nat} (first : 2 ^ 52 ≤ s + 1) (last : s + 1 < 2 ^ 53)
    (deep : 511 ≤ e) :
    ((2 * s + 1) * 2 ^ e) ^ 2 <
        4 * (rounded (((s + 1) * 2 ^ e) * ((s + 1) * 2 ^ e)) unit * unit) ∧
      4 * (rounded (((s + 1) * 2 ^ e) * ((s + 1) * 2 ^ e)) unit * unit) <
        ((2 * s + 3) * 2 ^ e) ^ 2 := by
  have step : 0 < 2 ^ e * 2 ^ e := Nat.mul_pos (Nat.two_pow_pos e) (Nat.two_pow_pos e)
  obtain ⟨k, grid⟩ : ∃ k, unit * 2 ^ k = 2 ^ 53 * (2 ^ e * 2 ^ e) := by
    refine ⟨2 * e - 1021, ?_⟩
    rw [unit, ← Nat.pow_add, ← Nat.pow_add, ← Nat.pow_add]
    exact congrArg (2 ^ ·) (show 1074 + (2 * e - 1021) = 53 + (e + e) by omega)
  rcases Nat.eq_or_lt_of_le first with equal | more
  · rw [← equal, rounded_square_of_first grid, equal]
    generalize 2 ^ e = p at step ⊢
    constructor <;> nlinarith
  · obtain ⟨above, below⟩ := rounded_square_near grid last
    generalize rounded (((s + 1) * 2 ^ e) * ((s + 1) * 2 ^ e)) unit * unit = r at above below ⊢
    generalize 2 ^ e = p at step above below ⊢
    have large : 2 ^ 54 * (p * p) < (4 * s + 3) * (p * p) :=
      (Nat.mul_lt_mul_right step).2 (by omega)
    constructor <;> nlinarith

/-- What is less than the square of half a step more than a number of 53 bits is less
than the square of the power of two that ends the grid. -/
theorem lt_square_of_lt {r s e : Nat} (last : s + 1 < 2 ^ 53)
    (below : 4 * r < ((2 * s + 3) * 2 ^ e) ^ 2) : r < (2 ^ (53 + e)) ^ 2 := by
  have most : (2 * s + 3) * 2 ^ e ≤ 2 * 2 ^ (53 + e) := by
    rw [Nat.pow_add, ← Nat.mul_assoc]
    exact Nat.mul_le_mul_right _ (by omega)
  have square := Nat.pow_le_pow_left most 2
  rw [Nat.mul_pow 2] at square
  omega

/-- A square is not rounded below the square of the first number of the grid. -/
theorem le_rounded_square {n e : Nat} (deep : 511 ≤ e) (first : 2 ^ (52 + e) ≤ n) :
    (2 ^ (52 + e)) ^ 2 ≤ rounded (n * n) unit * unit := by
  have positive : 0 < unit := Nat.two_pow_pos _
  have square : (2 ^ (52 + e)) ^ 2 = 2 ^ (2 * (52 + e) - unitExponent) * unit := by
    rw [← Nat.pow_mul, unit, ← Nat.pow_add]
    exact congrArg (2 ^ ·) (show (52 + e) * 2 = 2 * (52 + e) - 1074 + 1074 by omega)
  have exact : 2 ^ (2 * (52 + e) - unitExponent) * unit * unit ≤ n * n * unit := by
    rw [← square, Nat.pow_two]
    exact Nat.mul_le_mul_right unit (Nat.mul_le_mul first first)
  have mono := rounded_mono positive positive exact
  rw [rounded_mul (grid_dvd_two_pow _) positive] at mono
  rw [square]
  exact Nat.mul_le_mul_right unit mono

/-- A number that is not smaller than a power of two is not on a finer grid. -/
theorem le_gridExponent_of_unit_le {n k e : Nat} (total : k + (52 + e) = unitExponent)
    (large : unit ≤ 2 ^ k * n) : e ≤ gridExponent n := by
  refine le_gridExponent_of_le (Nat.le_of_mul_le_mul_left ?_ (Nat.two_pow_pos k))
  rwa [← Nat.pow_add, total]

/-- A number that is smaller than a power of two is not on a coarser grid. -/
theorem gridExponent_le_of_lt_unit {n k e : Nat} (total : k + unitExponent = 53 + e)
    (small : n < 2 ^ k * unit) : gridExponent n ≤ e := by
  refine gridExponent_le_of_lt ?_
  rwa [← total, Nat.pow_add]

/-- The square of a number has no sign. -/
theorem mul_self_eq {negative : Bool} {n : Nat} {onGrid : Representable n}
    (square : Representable (rounded (n * n) unit)) :
    mul (.finite negative n onGrid) (.finite negative n onGrid) =
      .finite false (rounded (n * n) unit) square := by
  rw [mul, bne_self_eq_false]
  exact ofQuotient_eq_finite _ rfl

/-- The root of a squared number is its size again, if the number is not smaller than
`2^-511` and smaller than `2^512`. -/
theorem sqrt_mul_self {negative : Bool} {n : Nat} {onGrid : Representable n}
    (large : unit ≤ 2 ^ 511 * n) (small : n < 2 ^ 512 * unit) :
    (mul (.finite negative n onGrid) (.finite negative n onGrid)).sqrt =
      .finite false n onGrid := by
  have positive : 0 < unit := Nat.two_pow_pos _
  have deep : 511 ≤ gridExponent n := le_gridExponent_of_unit_le rfl large
  have shallow : gridExponent n ≤ 1533 := by
    refine gridExponent_le_of_lt_unit (k := 512) ?_ small
    rfl
  have notZero : 0 < n := Nat.pos_of_mul_pos_left (positive.trans_le large)
  obtain ⟨significand, split, _, some, last, first⟩ := exists_significand onGrid.2 notZero
  have first := first (by omega)
  obtain ⟨s, rfl⟩ := Nat.exists_eq_add_one.2 some
  obtain ⟨above, below⟩ := rounded_square_between first last deep
  have least := le_rounded_square deep (two_pow_le_of_gridExponent (n := n) (by omega))
  rw [Nat.mul_comm] at split
  rw [← split] at above below
  generalize gridExponent n = e at deep shallow above below split least
  have most := lt_square_of_lt last below
  have grid : gridExponent (rounded (n * n) unit * unit).sqrt = e :=
    Nat.le_antisymm (gridExponent_le_of_lt (Nat.sqrt_lt'.2 most))
      (le_gridExponent_of_le (Nat.le_sqrt'.2 least))
  have square : Representable (rounded (n * n) unit) := by
    refine ⟨?_, grid_dvd_rounded _ _⟩
    refine Nat.lt_of_mul_lt_mul_right (most.trans_le ?_)
    rw [← Nat.pow_mul, limit, unit, ← Nat.pow_add]
    exact Nat.pow_le_pow_right (by decide) (show (53 + e) * 2 ≤ 2098 + 1074 by omega)
  have notZero' : rounded (n * n) unit ≠ 0 := by
    intro none
    rw [none] at above
    omega
  rw [mul_self_eq square, sqrt, if_neg notZero', if_neg Bool.false_ne_true]
  refine ofRoot_eq_finite onGrid ?_
  rw [rootSteps_eq grid above below, grid, ← split]

/-- The square of a number of `2^512` or more is infinite. -/
theorem mul_self_of_large {negative : Bool} {n : Nat} {onGrid : Representable n}
    (large : 2 ^ 512 * unit ≤ n) :
    mul (.finite negative n onGrid) (.finite negative n onGrid) = .infinite false := by
  have positive : 0 < unit := Nat.two_pow_pos _
  obtain ⟨k, enough, large⟩ : ∃ k, limitExponent + unitExponent ≤ k + unitExponent +
      (k + unitExponent) ∧ 2 ^ k * unit ≤ n := ⟨512, by decide, large⟩
  have square : limit * unit * unit ≤ n * n * unit := by
    refine Nat.mul_le_mul_right unit (Nat.le_trans ?_ (Nat.mul_le_mul large large))
    rw [limit, unit, ← Nat.pow_add, ← Nat.pow_add, ← Nat.pow_add]
    exact Nat.pow_le_pow_right (by decide) enough
  have mono := rounded_mono positive positive square
  rw [limit, rounded_mul (grid_dvd_two_pow limitExponent) positive] at mono
  rw [mul, bne_self_eq_false]
  exact ofQuotient_eq_infinite mono

/-- The square of a number of `2^-538` or less is zero. -/
theorem mul_self_of_small {negative : Bool} {n : Nat} {onGrid : Representable n}
    (small : 2 ^ 538 * n ≤ unit) :
    mul (.finite negative n onGrid) (.finite negative n onGrid) = zero false := by
  have positive : 0 < unit := Nat.two_pow_pos _
  obtain ⟨k, total, small⟩ : ∃ k, k + k = 2 + unitExponent ∧ 2 ^ k * n ≤ unit :=
    ⟨538, rfl, small⟩
  have units : 2 ^ k * 2 ^ k = 4 * unit := by rw [← Nat.pow_add, total, Nat.pow_add, unit]
  have quarter : 4 * (n * n) ≤ unit := by
    refine Nat.le_of_mul_le_mul_left ?_ positive
    calc unit * (4 * (n * n)) = (2 ^ k * 2 ^ k) * (n * n) := by
          rw [units]
          ring
      _ = (2 ^ k * n) * (2 ^ k * n) := by ring
      _ ≤ unit * unit := Nat.mul_le_mul small small
  have near : IsNearest (n * n) (unit * 2 ^ 0) 0 := by
    rw [Nat.pow_zero, Nat.mul_one]
    constructor <;> omega
  have fine : n * n < 2 ^ (53 + 0) * unit := by
    rw [Nat.add_zero]
    omega
  rw [mul, bne_self_eq_false]
  exact ofQuotient_eq_finite _ (rounded_eq_of_isNearest positive (Or.inl rfl) fine near)

variable {x : Binary64}

/-- A number that is not below zero is at the place of one without a sign. -/
theorem exists_place_eq_of_nonneg (finite : x.isFinite = true)
    (nonneg : x.lt (zero false) = false) :
    ∃ n onGrid, x.place = (Binary64.finite false n onGrid).place ∧ x.toRat = n / unit := by
  cases x with
  | infinite s => cases finite
  | nan => cases finite
  | finite s n onGrid =>
    cases s with
    | false => exact ⟨n, onGrid, rfl, rfl⟩
    | true =>
      have none : n = 0 := by
        by_contra some
        have below : (Binary64.finite true n onGrid).lt (zero false) = true :=
          (lt_iff_of_place rfl rfl).2 (by simp only [signed, if_true]; omega)
        rw [below] at nonneg
        cases nonneg
      subst none
      exact ⟨0, onGrid, rfl, (toRat_zero true).trans (by rw [Nat.cast_zero, zero_div])⟩

/-- Numbers of quanta are compared with a power of two. -/
theorem lt_two_pow_iff {n k : Nat} : (n : ℚ) / unit < 2 ^ k ↔ n < 2 ^ k * unit := by
  rw [div_lt_iff₀ unit_pos]
  exact_mod_cast Iff.rfl

/-- Numbers of quanta are compared with a negative power of two. -/
theorem one_div_two_pow_le_iff {n k : Nat} : 1 / 2 ^ k ≤ (n : ℚ) / unit ↔ unit ≤ 2 ^ k * n := by
  rw [div_le_div_iff₀ (by positivity) unit_pos, one_mul, mul_comm (n : ℚ)]
  exact_mod_cast Iff.rfl

/-- They are compared strictly alike. -/
theorem one_div_two_pow_lt_iff {n k : Nat} : 1 / 2 ^ k < (n : ℚ) / unit ↔ unit < 2 ^ k * n := by
  rw [div_lt_div_iff₀ (by positivity) unit_pos, one_mul, mul_comm (n : ℚ)]
  exact_mod_cast Iff.rfl

/-- A finite number is numerically zero if its value is. -/
theorem toRat_eq_zero_iff (finite : x.isFinite = true) : x.toRat = 0 ↔ x.place = some 0 := by
  obtain ⟨k, place, value⟩ := exists_place_of_isFinite finite
  rw [place, value, div_eq_zero_iff, or_iff_left unit_pos.ne', Int.cast_eq_zero, Option.some.injEq]

/-- The root of the square of zero is zero. -/
theorem sqrt_mul_self_of_toRat_eq_zero (finite : x.isFinite = true) (h : x.toRat = 0) :
    (x.mul x).sqrt = zero false := by
  have place : x.place = (zero false).place := (toRat_eq_zero_iff finite).1 h
  have nothing : ((zero false).mul (zero false)).sqrt = zero false := by decide +kernel
  rw [mul_self_congr place, nothing]

/-- A number from `2^-511` on and below `2^512` is the root of its square. -/
theorem sqrt_mul_self_same (finite : x.isFinite = true) (nonneg : x.lt (zero false) = false)
    (large : 1 / 2 ^ 511 ≤ x.toRat) (small : x.toRat < 2 ^ 512) :
    (x.mul x).sqrt.same x = true := by
  obtain ⟨n, onGrid, place, value⟩ := exists_place_eq_of_nonneg finite nonneg
  rw [value] at large small
  rw [same_iff_place_eq finite, mul_self_congr place, place,
    sqrt_mul_self (n := n) ((one_div_two_pow_le_iff (n := n) (k := 511)).1 large)
      ((lt_two_pow_iff (k := 512)).1 small)]

/-- A number that is the root of its square is zero, or above `2^-538` and below `2^512`. -/
theorem bounds_of_sqrt_mul_self_same (finite : x.isFinite = true)
    (nonneg : x.lt (zero false) = false) (same : (x.mul x).sqrt.same x = true) :
    x.toRat = 0 ∨ 1 / 2 ^ 538 < x.toRat ∧ x.toRat < 2 ^ 512 := by
  obtain ⟨n, onGrid, place, value⟩ := exists_place_eq_of_nonneg finite nonneg
  rw [same_iff_place_eq finite, mul_self_congr place] at same
  rcases Nat.lt_or_ge n (2 ^ 512 * unit) with small | large
  · rcases Nat.lt_or_ge unit (2 ^ 538 * n) with large | none
    · rw [value]
      exact Or.inr ⟨(one_div_two_pow_lt_iff (k := 538)).2 large,
        (lt_two_pow_iff (k := 512)).2 small⟩
    · have nothing : (zero false).sqrt = zero false := rfl
      rw [mul_self_of_small (n := n) none, nothing] at same
      exact Or.inl ((toRat_eq_zero_iff finite).2 same.symm)
  · have infinite : (Binary64.infinite false).sqrt = .infinite false := rfl
    rw [mul_self_of_large large, infinite] at same
    have ended := (isFinite_iff_of_place same.symm).1 finite
    exact absurd ended.2 (lt_irrefl _)

end RunReport.Binary64
