import RunReport.Proofs.Number.Nearest
import RunReport.Proofs.Number.Order

/-!
# How far rounding leads away

A rounded quotient is off by one part in `2^53` at most, or by half a quantum where the
grid has no finer steps. A sum has whole quanta, so only the first applies. A mean that
is weighted by two such numbers, whose own sum is off by as much, is rounded twice more;
all of this together leads it away from its bounds by four such parts and two quanta at
most.
-/

namespace RunReport.Binary64

/-- The greatest part of a result that rounding it to 53 bits can make up. -/
def roundingPart : ℚ := 1 / 2 ^ 53

/-- Half of a quantum. -/
def halfQuantum : ℚ := 1 / (2 * unit)

theorem roundingPart_nonneg : 0 ≤ roundingPart := by
  unfold roundingPart
  positivity

theorem halfQuantum_nonneg : 0 ≤ halfQuantum := by
  have positive := unit_pos
  unfold halfQuantum
  positivity

/-- A rounded quotient is off by half a step of its grid at most. -/
theorem two_mul_abs_sub_rounded_le {num den : ℕ} (positive : 0 < den) :
    2 * |(num : ℤ) - rounded num den * den| ≤ 2 ^ gridExponent (num / den) * den := by
  have nearest := isNearest_roundHalfEven
    (Nat.mul_pos positive (Nat.two_pow_pos (gridExponent (num / den)))) num
  have above : (2 * num : ℤ) ≤
      (2 * quotientSteps num den + 1) * (den * 2 ^ gridExponent (num / den)) := by
    exact_mod_cast nearest.le_above
  have below : (2 * quotientSteps num den * (den * 2 ^ gridExponent (num / den)) : ℤ) ≤
      2 * num + den * 2 ^ gridExponent (num / den) := by
    exact_mod_cast nearest.below_le
  have value : ((rounded num den : ℕ) : ℤ) =
      quotientSteps num den * 2 ^ gridExponent (num / den) := by
    rw [rounded]
    push_cast
    ring
  rw [value]
  rcases abs_cases ((num : ℤ) - quotientSteps num den * 2 ^ gridExponent (num / den) * den) with
    ⟨eq, _⟩ | ⟨eq, _⟩ <;> rw [eq] <;> linarith

/-- On a grid of more than single quanta half a step is a small part of the quotient. -/
theorem two_pow_mul_le_of_gridExponent {num den : ℕ} (positive : 0 < den)
    (coarse : 0 < gridExponent (num / den)) :
    2 ^ 52 * (2 ^ gridExponent (num / den) * den : ℤ) ≤ num := by
  have bottom := two_pow_le_of_gridExponent coarse
  rw [Nat.pow_add, Nat.le_div_iff_mul_le positive] at bottom
  have small : (2 ^ 52 * 2 ^ gridExponent (num / den) * den : ℤ) ≤ num := by exact_mod_cast bottom
  linarith

/-- A rounded quotient is off by a small part of it, or by half a quantum. -/
theorem two_pow_mul_abs_sub_rounded_le {num den : ℕ} (positive : 0 < den) :
    2 ^ 53 * |(num : ℤ) - rounded num den * den| ≤ num + 2 ^ 52 * den := by
  have off := @two_mul_abs_sub_rounded_le num den positive
  have size : (0 : ℤ) ≤ num := Int.natCast_nonneg num
  have size' : (0 : ℤ) ≤ den := Int.natCast_nonneg den
  rcases Nat.eq_zero_or_pos (gridExponent (num / den)) with fine | coarse
  · rw [fine, pow_zero, one_mul] at off
    linarith
  · have part := two_pow_mul_le_of_gridExponent positive coarse
    linarith

/-- A rounded count of quanta is off by a small part of it. -/
theorem two_pow_mul_abs_sub_rounded_one_le (num : ℕ) :
    2 ^ 53 * |(num : ℤ) - rounded num 1| ≤ num := by
  rcases Nat.eq_zero_or_pos (gridExponent num) with fine | coarse
  · have exact : rounded (num * 1) 1 = num :=
      rounded_mul (by rw [fine, pow_zero]; exact one_dvd num) Nat.one_pos
    rw [Nat.mul_one] at exact
    rw [exact, sub_self, abs_zero, mul_zero]
    exact Int.natCast_nonneg num
  · have off := @two_mul_abs_sub_rounded_le num 1 Nat.one_pos
    have part := @two_pow_mul_le_of_gridExponent num 1 Nat.one_pos (by rwa [Nat.div_one])
    rw [Nat.cast_one, mul_one] at off part
    rw [mul_one] at off
    linarith

/-- A quotient that becomes a finite number becomes its rounded count of quanta. -/
theorem toRat_ofQuotient {negative : Bool} {num den : ℕ}
    (finite : (ofQuotient negative num den).isFinite = true) :
    (ofQuotient negative num den).toRat = signed negative (rounded num den) / unit := by
  have small : rounded num den < limit := by
    by_contra large
    rw [ofQuotient_eq_infinite (Nat.not_lt.1 large)] at finite
    cases finite
  rw [ofQuotient_eq_finite ⟨small, grid_dvd_rounded num den⟩ rfl]
  rfl

/-- The size of a signed count. -/
theorem abs_signed (negative : Bool) (n : ℕ) : |signed negative n| = n := by
  rw [Int.abs_eq_natAbs, natAbs_signed]

variable {x y : Binary64}

/-- A product is off by a small part of it, or by half a quantum. -/
theorem abs_toRat_mul_sub_le (hx : x.isFinite = true) (hy : y.isFinite = true)
    (finite : (x.mul y).isFinite = true) :
    |(x.mul y).toRat - x.toRat * y.toRat| ≤ roundingPart * |x.toRat * y.toRat| + halfQuantum := by
  obtain ⟨s, m, onGrid, rfl⟩ := exists_eq_finite hx
  obtain ⟨t, n, onGrid', rfl⟩ := exists_eq_finite hy
  have scale := unit_pos
  have quantum : 0 < unit := Nat.two_pow_pos _
  have product : (Binary64.finite s m onGrid).toRat * (Binary64.finite t n onGrid').toRat =
      signed (s != t) (m * n) / (unit * unit) := by
    have signs : signed s m * signed t n = signed (s != t) (m * n) := by
      cases s <;> cases t <;> simp [signed]
    simp only [toRat]
    rw [div_mul_div_comm, ← Int.cast_mul, signs]
  have off : (2 ^ 53 * |((m * n : ℕ) : ℤ) - rounded (m * n) unit * unit| : ℚ) ≤
      (m * n : ℕ) + 2 ^ 52 * unit := by
    exact_mod_cast @two_pow_mul_abs_sub_rounded_le (m * n) unit quantum
  rw [mul] at finite ⊢
  rw [toRat_ofQuotient finite, product, abs_toRat_sub _ _ _ _ quantum, abs_signed_sub,
    abs_div, abs_of_pos (mul_pos scale scale), ← Int.cast_abs, abs_signed, roundingPart,
    halfQuantum, Int.cast_natCast]
  generalize (unit : ℚ) = q at *
  generalize ((|((m * n : ℕ) : ℤ) - rounded (m * n) unit * unit| : ℤ) : ℚ) = distance at *
  calc distance / (q * q) = 2 ^ 53 * distance / (2 ^ 53 * (q * q)) := by field_simp
    _ ≤ ((m * n : ℕ) + 2 ^ 52 * q) / (2 ^ 53 * (q * q)) := by gcongr
    _ = 1 / 2 ^ 53 * ((m * n : ℕ) / (q * q)) + 1 / (2 * q) := by
      field_simp

/-- A sum is off by a small part of it. -/
theorem abs_toRat_add_sub_le (hx : x.isFinite = true) (hy : y.isFinite = true)
    (finite : (x.add y).isFinite = true) :
    |(x.add y).toRat - (x.toRat + y.toRat)| ≤ roundingPart * |x.toRat + y.toRat| := by
  obtain ⟨s, m, onGrid, rfl⟩ := exists_eq_finite hx
  obtain ⟨t, n, onGrid', rfl⟩ := exists_eq_finite hy
  have scale := unit_pos
  have total : (Binary64.finite s m onGrid).toRat + (Binary64.finite t n onGrid').toRat =
      (signed s m + signed t n : ℤ) / unit := by
    simp only [toRat]
    push_cast
    ring
  rw [total]
  simp only [add] at finite ⊢
  generalize signed s m + signed t n = sum at *
  by_cases none : sum = 0
  · rw [if_pos none, none, toRat_zero, Int.cast_zero, zero_div, sub_self, abs_zero, mul_zero]
  · rw [if_neg none] at finite ⊢
    have off : ((2 ^ 53 * |(sum.natAbs : ℤ) - rounded sum.natAbs 1| : ℤ) : ℚ) ≤
        (sum.natAbs : ℤ) := Int.cast_le.2 (two_pow_mul_abs_sub_rounded_one_le sum.natAbs)
    have distance := abs_toRat_sub (sum < 0) (sum < 0) (rounded sum.natAbs 1) sum.natAbs
      Nat.one_pos
    rw [abs_signed_sub] at distance
    simp only [signed_natAbs, Nat.cast_one, one_mul, mul_one] at distance
    rw [toRat_ofQuotient finite, distance, roundingPart, abs_div, abs_of_pos scale, ← Int.cast_abs,
      Int.abs_eq_natAbs sum]
    rw [Int.cast_mul] at off
    generalize (unit : ℚ) = q at *
    generalize ((|(sum.natAbs : ℤ) - rounded sum.natAbs 1| : ℤ) : ℚ) = apart at *
    have part : apart ≤ 1 / 2 ^ 53 * ((sum.natAbs : ℤ) : ℚ) := by
      push_cast at off ⊢
      linarith
    calc apart / q ≤ 1 / 2 ^ 53 * ((sum.natAbs : ℤ) : ℚ) / q := by gcongr
      _ = 1 / 2 ^ 53 * (((sum.natAbs : ℤ) : ℚ) / q) := by rw [mul_div_assoc]

/-- The other sign negates the value. -/
theorem toRat_neg (x : Binary64) : x.neg.toRat = -x.toRat := by
  cases x with
  | finite negative n onGrid =>
    have sign : signed (!negative) n = -signed negative n := by cases negative <;> simp [signed]
    simp only [neg, toRat, sign, Int.cast_neg, neg_div]
  | infinite negative => exact neg_zero.symm
  | nan => exact neg_zero.symm

/-- A number with the other sign is finite when the number is. -/
theorem isFinite_neg (x : Binary64) : x.neg.isFinite = x.isFinite := by
  cases x <;> rfl

/-- A difference is off by a small part of it. -/
theorem abs_toRat_sub_sub_le (hx : x.isFinite = true) (hy : y.isFinite = true)
    (finite : (x.sub y).isFinite = true) :
    |(x.sub y).toRat - (x.toRat - y.toRat)| ≤ roundingPart * |x.toRat - y.toRat| := by
  have sum := abs_toRat_add_sub_le hx ((isFinite_neg y).trans hy) finite
  rwa [toRat_neg, ← sub_eq_add_neg] at sum

section Mean

variable {part slip w r x y p q s bound size : ℚ}

/-- A weighted part that is rounded exceeds that of a bound by what rounding adds. -/
theorem weighted_le (nonneg : 0 ≤ w) (hpart : 0 ≤ part) (below : x ≤ bound) (within : |x| ≤ size)
    (off : |p - w * x| ≤ part * |w * x| + slip) :
    p ≤ w * bound + part * (w * size) + slip := by
  have rounded := (le_abs_self _).trans off
  have value : w * x ≤ w * bound := mul_le_mul_of_nonneg_left below nonneg
  have extent : |w * x| ≤ w * size := by
    rw [abs_mul, abs_of_nonneg nonneg]
    exact mul_le_mul_of_nonneg_left within nonneg
  have added := mul_le_mul_of_nonneg_left extent hpart
  linarith

/-- The size of a weighted part that is rounded exceeds that of a bound by what rounding
adds. -/
theorem abs_weighted_le (nonneg : 0 ≤ w) (hpart : 0 ≤ part) (within : |x| ≤ size)
    (off : |p - w * x| ≤ part * |w * x| + slip) : |p| ≤ w * size + part * (w * size) + slip := by
  have extent : |w * x| ≤ w * size := by
    rw [abs_mul, abs_of_nonneg nonneg]
    exact mul_le_mul_of_nonneg_left within nonneg
  have added := mul_le_mul_of_nonneg_left extent hpart
  have split := abs_add_le (p - w * x) (w * x)
  rw [sub_add_cancel] at split
  linarith

/-- A mean whose two parts and sum are rounded, and whose weights add up to one but for
rounding, exceeds a bound on both numbers by four such parts of the bound at most, and
by what the two parts are off at the least. -/
theorem mean_le (hpart : 0 ≤ part) (small : part ≤ 1 / 16) (hslip : 0 ≤ slip) (hw : 0 ≤ w)
    (hr : 0 ≤ r) (whole : |w + r - 1| ≤ part) (hx : x ≤ bound) (hy : y ≤ bound)
    (within : |x| ≤ size) (within' : |y| ≤ size) (boundWithin : |bound| ≤ size)
    (hp : |p - w * x| ≤ part * |w * x| + slip) (hq : |q - r * y| ≤ part * |r * y| + slip)
    (hs : |s - (p + q)| ≤ part * |p + q|) : s ≤ bound + 4 * part * size + 4 * slip := by
  have positive : 0 ≤ size := (abs_nonneg x).trans within
  have left := weighted_le hw hpart hx within hp
  have right := weighted_le hr hpart hy within' hq
  have leftSize := abs_weighted_le hw hpart within hp
  have rightSize := abs_weighted_le hr hpart within' hq
  have total : w + r ≤ 1 + part := by linarith [le_abs_self (w + r - 1)]
  have share : (w + r) * size ≤ (1 + part) * size := mul_le_mul_of_nonneg_right total positive
  have excess : (w + r - 1) * bound ≤ part * size := by
    refine (le_abs_self _).trans ?_
    rw [abs_mul]
    exact mul_le_mul whole boundWithin (abs_nonneg bound) hpart
  have parts := mul_le_mul_of_nonneg_left share hpart
  have sumSize : |p + q| ≤ (1 + part) * (1 + part) * size + 2 * slip := by
    have both := abs_add_le p q
    linarith
  have sum : p + q ≤ bound + part * size + part * ((1 + part) * size) + 2 * slip := by linarith
  have rounded := (le_abs_self _).trans hs
  have last := mul_le_mul_of_nonneg_left sumSize hpart
  have square : (1 + part) * (1 + part) ≤ (1 + 1 / 16) * (1 + 1 / 16) := by gcongr
  have factor : 1 + (1 + part) + (1 + part) * (1 + part) ≤ 4 := by linarith
  have fourfold := mul_le_mul_of_nonneg_right factor (mul_nonneg hpart positive)
  have slips : part * slip ≤ slip := mul_le_of_le_one_left hslip (by linarith)
  linarith

/-- Such a mean falls short of a lower bound by as little. -/
theorem le_mean (hpart : 0 ≤ part) (small : part ≤ 1 / 16) (hslip : 0 ≤ slip) (hw : 0 ≤ w)
    (hr : 0 ≤ r) (whole : |w + r - 1| ≤ part) (hx : bound ≤ x) (hy : bound ≤ y)
    (within : |x| ≤ size) (within' : |y| ≤ size) (boundWithin : |bound| ≤ size)
    (hp : |p - w * x| ≤ part * |w * x| + slip) (hq : |q - r * y| ≤ part * |r * y| + slip)
    (hs : |s - (p + q)| ≤ part * |p + q|) : bound - 4 * part * size - 4 * slip ≤ s := by
  have mirrored : ∀ a b : ℚ, |-a - -b| = |a - b| := fun a b => by rw [neg_sub_neg, abs_sub_comm]
  have other := @mean_le part slip w r (-x) (-y) (-p) (-q) (-s) (-bound) size hpart small hslip
    hw hr whole (neg_le_neg hx) (neg_le_neg hy) (by rwa [abs_neg]) (by rwa [abs_neg])
    (by rwa [abs_neg]) (by rwa [mul_neg, mirrored, abs_neg]) (by rwa [mul_neg, mirrored, abs_neg])
    (by rwa [← neg_add, mirrored, abs_neg])
  linarith

end Mean

end RunReport.Binary64
