import Mathlib.Algebra.Order.Field.Basic
import Mathlib.Tactic.FieldSimp
import RunReport.Proofs.Number.Bounds
import RunReport.Proofs.Number.Decimal

/-!
# Which number is the nearest

A nearest whole number is as near to a quotient as any integer, and even if another
one is as near. Rounding to 53 bits gives a count of quanta that is as near as any
count on its own grid. So what a quotient or a decimal numeral is rounded to is, as
long as it is finite, a binary64 number that no other is nearer than.
-/

namespace RunReport

namespace IsNearest

variable {num den r : ℕ}

/-- No integer is nearer than a nearest whole number. -/
theorem distance_le (h : IsNearest num den r) (k : ℤ) :
    |(num : ℤ) - r * den| ≤ |(num : ℤ) - k * den| := by
  have above : 2 * (num : ℤ) ≤ 2 * (r * den) + den := by
    have le : (2 * num : ℤ) ≤ (2 * r + 1) * den := by exact_mod_cast h.le_above
    linarith
  have below : 2 * ((r : ℤ) * den) ≤ 2 * num + den := by
    have le : (2 * r * den : ℤ) ≤ 2 * num + den := by exact_mod_cast h.below_le
    linarith
  have size : (0 : ℤ) ≤ den := Int.natCast_nonneg den
  rcases lt_trichotomy k r with less | rfl | more
  · have step : (k + 1) * den ≤ r * den := mul_le_mul_of_nonneg_right less size
    rcases abs_cases ((num : ℤ) - r * den) with ⟨eq, _⟩ | ⟨eq, _⟩ <;>
      rw [eq] <;> refine le_trans ?_ (le_abs_self _) <;> linarith
  · exact le_rfl
  · have step : ((r : ℤ) + 1) * den ≤ k * den := mul_le_mul_of_nonneg_right more size
    rcases abs_cases ((num : ℤ) - r * den) with ⟨eq, _⟩ | ⟨eq, _⟩ <;>
      rw [eq] <;> refine le_trans ?_ (neg_le_abs _) <;> linarith

/-- If another integer is as near, the nearest whole number is even. -/
theorem even_of_tie (h : IsNearest num den r) (positive : 0 < den) {k : ℤ} (other : k ≠ r)
    (tie : |(num : ℤ) - k * den| = |(num : ℤ) - r * den|) : r % 2 = 0 := by
  have above : (2 * num : ℤ) ≤ (2 * r + 1) * den := by exact_mod_cast h.le_above
  have below : (2 * r * den : ℤ) ≤ 2 * num + den := by exact_mod_cast h.below_le
  have size : (0 : ℤ) < den := by exact_mod_cast positive
  rcases abs_eq_abs.1 tie with same | sides
  · exact absurd (mul_right_cancel₀ size.ne' (by linarith : k * (den : ℤ) = r * den)) other
  rcases lt_or_gt_of_ne other with less | more
  · have step : (k + 1) * den ≤ r * den := mul_le_mul_of_nonneg_right less size.le
    refine h.even_below ?_
    have half : (2 * r * den : ℤ) = 2 * num + den := by linarith
    exact_mod_cast half
  · have step : ((r : ℤ) + 1) * den ≤ k * den := mul_le_mul_of_nonneg_right more size.le
    refine h.even_above ?_
    have half : (2 * num : ℤ) = (2 * r + 1) * den := by linarith
    exact_mod_cast half

/-- What is nearest to a quotient is nearest to every quotient that is as near to it. -/
theorem of_nearer {other : ℕ} (h : IsNearest num den r) (positive : 0 < den)
    (nearer : |(other : ℤ) - r * den| ≤ |(num : ℤ) - r * den|) : IsNearest other den r := by
  have above : (2 * num : ℤ) ≤ (2 * r + 1) * den := by exact_mod_cast h.le_above
  have below : (2 * r * den : ℤ) ≤ 2 * num + den := by exact_mod_cast h.below_le
  have half : 2 * |(num : ℤ) - r * den| ≤ den := by
    rcases abs_cases ((num : ℤ) - r * den) with ⟨eq, _⟩ | ⟨eq, _⟩ <;> rw [eq] <;> linarith
  have even : 2 * |(other : ℤ) - r * den| = den → r % 2 = 0 := by
    intro there
    rcases abs_cases ((num : ℤ) - r * den) with ⟨eq, _⟩ | ⟨eq, _⟩
    · refine h.even_above ?_
      have exact : (2 * num : ℤ) = (2 * r + 1) * den := by linarith
      exact_mod_cast exact
    · refine h.even_below ?_
      have exact : (2 * r * den : ℤ) = 2 * num + den := by linarith
      exact_mod_cast exact
  have up := le_abs_self ((other : ℤ) - r * den)
  have down := neg_le_abs ((other : ℤ) - r * den)
  have size : (0 : ℤ) < den := by exact_mod_cast positive
  refine ⟨?_, ?_, fun exact => even ?_, fun exact => even ?_⟩
  · have le : (2 * other : ℤ) ≤ (2 * r + 1) * den := by linarith
    exact_mod_cast le
  · have le : (2 * r * den : ℤ) ≤ 2 * other + den := by linarith
    exact_mod_cast le
  · have eq : (2 * other : ℤ) = (2 * r + 1) * den := by exact_mod_cast exact
    rw [abs_of_nonneg (by linarith)]
    linarith
  · have eq : (2 * r * den : ℤ) = 2 * other + den := by exact_mod_cast exact
    rw [abs_of_nonpos (by linarith)]
    linarith

end IsNearest

namespace Binary64

/-- No count on its own grid is nearer to a quotient than what it is rounded to. -/
theorem rounded_nearest {num den n : ℕ} (positive : 0 < den) (onGrid : 2 ^ gridExponent n ∣ n) :
    |(num : ℤ) - rounded num den * den| ≤ |(num : ℤ) - n * den| := by
  have nearest := isNearest_roundHalfEven
    (Nat.mul_pos positive (Nat.two_pow_pos (gridExponent (num / den)))) num
  have steps : ∀ k : ℕ, |(num : ℤ) - rounded num den * den| ≤
      |(num : ℤ) - (k * 2 ^ gridExponent (num / den) : ℕ) * den| := by
    intro k
    have least := nearest.distance_le k
    rw [rounded, quotientSteps]
    push_cast at least ⊢
    rwa [mul_assoc, mul_comm (2 ^ _ : ℤ), mul_assoc (k : ℤ), mul_comm (2 ^ _ : ℤ)]
  rcases Nat.lt_or_ge (gridExponent n) (gridExponent (num / den)) with finer | coarser
  · have least := steps (2 ^ 52)
    rw [← Nat.pow_add] at least
    have bottom := two_pow_le_of_gridExponent (n := num / den) (by omega)
    have under : n < 2 ^ (52 + gridExponent (num / den)) := by
      refine (lt_two_pow_gridExponent n).trans_le (Nat.pow_le_pow_right (by decide) ?_)
      omega
    generalize 2 ^ (52 + gridExponent (num / den)) = power at *
    have reach : power * den ≤ num := (Nat.le_div_iff_mul_le positive).1 bottom
    have left : n * den ≤ power * den := Nat.mul_le_mul_right den under.le
    have left' : (n : ℤ) * den ≤ power * den := by exact_mod_cast left
    have reach' : (power : ℤ) * den ≤ num := by exact_mod_cast reach
    have above : (num : ℤ) - power * den ≤ num - n * den := by linarith
    calc |(num : ℤ) - rounded num den * den| ≤ |(num : ℤ) - power * den| := least
      _ = num - power * den := abs_of_nonneg (by linarith)
      _ ≤ num - n * den := above
      _ ≤ |(num : ℤ) - n * den| := le_abs_self _
  · obtain ⟨k, multiple⟩ := (Nat.pow_dvd_pow 2 coarser).trans onGrid
    rw [multiple, Nat.mul_comm]
    exact steps k

/-- A finite number that no finite number is nearer to a rational than. -/
def IsNearestTo (w : Binary64) (q : ℚ) : Prop :=
  w.isFinite = true ∧ ∀ y : Binary64, y.isFinite = true → |w.toRat - q| ≤ |y.toRat - q|

/-- The distance of a number from a quotient of quanta. -/
theorem abs_toRat_sub (s t : Bool) (n num : ℕ) {den : ℕ} (positive : 0 < den) :
    |(signed s n : ℚ) / unit - signed t num / (den * unit)| =
      (|signed t num - signed s n * den| : ℤ) / (den * unit) := by
  have scale := unit_pos
  have denominator : (0 : ℚ) < den := by exact_mod_cast positive
  have difference : (signed s n : ℚ) / unit - signed t num / (den * unit) =
      -((signed t num - signed s n * den : ℤ) : ℚ) / (den * unit) := by
    push_cast
    field_simp
    ring
  rw [difference, abs_div, abs_neg, abs_of_pos (mul_pos denominator scale), Int.cast_abs]

/-- A sign in front of a number may as well stand in front of the other. -/
theorem abs_signed_sub_int (s : Bool) (a c : ℕ) (k : ℤ) :
    |signed s a - k * c| = |(a : ℤ) - (if s then -k else k) * c| := by
  cases s with
  | false => rfl
  | true =>
    rw [← abs_neg]
    simp only [signed, if_true]
    congr 1
    ring

/-- A sign in front of both sides leaves a distance as it is. -/
theorem abs_signed_sub (s : Bool) (a b c : ℕ) :
    |signed s a - signed s b * c| = |(a : ℤ) - b * c| := by
  rw [abs_signed_sub_int]
  cases s with
  | false => rfl
  | true => simp only [signed, if_true, neg_neg]

/-- What a quotient is rounded to is nearest to it among the numbers of both signs. -/
theorem signed_nearest {num den n : ℕ} (positive : 0 < den) (onGrid : 2 ^ gridExponent n ∣ n)
    (s t : Bool) :
    |signed t num - signed t (rounded num den) * den| ≤ |signed t num - signed s n * den| := by
  rw [abs_signed_sub]
  by_cases same : s = t
  · rw [same, abs_signed_sub]
    exact rounded_nearest positive onGrid
  · refine (rounded_nearest positive (Nat.dvd_zero (2 ^ gridExponent 0))).trans ?_
    have size : (0 : ℤ) ≤ n * den := by positivity
    rw [Nat.cast_zero, zero_mul, sub_zero, Nat.abs_cast]
    cases t with
    | false =>
      obtain rfl : s = true := by simpa using same
      have far : (num : ℤ) ≤ signed false num - signed true n * den := by
        simp only [signed, if_true, Bool.false_eq_true, if_false]
        linarith
      exact far.trans (le_abs_self _)
    | true =>
      obtain rfl : s = false := by simpa using same
      have far : (num : ℤ) ≤ -(signed true num - signed false n * den) := by
        simp only [signed, if_true, Bool.false_eq_true, if_false]
        linarith
      exact far.trans (neg_le_abs _)

/-- A quotient that becomes a finite number becomes a nearest one. -/
theorem isNearestTo_ofQuotient {negative : Bool} {num den : ℕ} (positive : 0 < den)
    (finite : (ofQuotient negative num den).isFinite = true) :
    (ofQuotient negative num den).IsNearestTo (signed negative num / (den * unit)) := by
  refine ⟨finite, fun y finiteY => ?_⟩
  have small : rounded num den < limit := by
    by_contra large
    rw [ofQuotient_eq_infinite (Nat.not_lt.1 large)] at finite
    cases finite
  obtain ⟨s, n, onGrid, rfl⟩ := exists_eq_finite finiteY
  rw [ofQuotient_eq_finite ⟨small, grid_dvd_rounded num den⟩ rfl]
  simp only [toRat, abs_toRat_sub _ _ _ _ positive]
  have least : |signed negative num - signed negative (rounded num den) * den| ≤
      |signed negative num - signed s n * den| := signed_nearest positive onGrid.2 s negative
  have denominator : (0 : ℚ) < den := by exact_mod_cast positive
  exact div_le_div_of_nonneg_right (Int.cast_le.2 least) (mul_pos denominator unit_pos).le

end Binary64

namespace Decimal

/-- The rational number that a numeral denotes. -/
def toRat (d : Decimal) : ℚ := Binary64.signed d.negative d.digits * 10 ^ d.exponent

/-- A numeral that becomes a finite number becomes a nearest one, with its own sign. -/
theorem isNearestTo_toBinary64 {d : Decimal} (finite : d.toBinary64.isFinite = true) :
    d.toBinary64.IsNearestTo d.toRat ∧ d.toBinary64.isNegative = d.negative := by
  obtain ⟨negative, digits, exponent⟩ := d
  by_cases none : digits = 0
  · subst none
    have nothing : (⟨negative, 0, exponent⟩ : Decimal).toBinary64 = Binary64.zero negative := by
      rw [toBinary64, if_pos rfl]
    have value : (⟨negative, 0, exponent⟩ : Decimal).toRat = 0 := by
      cases negative <;> simp [toRat, Binary64.signed]
    rw [nothing, value]
    refine ⟨⟨rfl, fun y _ => ?_⟩, rfl⟩
    rw [Binary64.toRat_zero, sub_zero, abs_zero]
    exact abs_nonneg _
  · have power : 0 < 10 ^ (-exponent).toNat := Nat.pow_pos (by decide)
    rw [toBinary64_eq_ofQuotient exponent none] at finite ⊢
    have value : (⟨negative, digits, exponent⟩ : Decimal).toRat =
        Binary64.signed negative (digits * 10 ^ exponent.toNat * Binary64.unit) /
          ((10 ^ (-exponent).toNat : ℕ) * Binary64.unit) := by
      have scale := Binary64.unit_pos
      have exponents : exponent = (exponent.toNat : ℤ) - ((-exponent).toNat : ℤ) := by omega
      have ten : (10 : ℚ) ≠ 0 := by norm_num
      rw [toRat]
      dsimp only
      nth_rewrite 1 [exponents]
      rw [zpow_sub₀ ten, zpow_natCast, zpow_natCast]
      cases negative <;> simp only [Binary64.signed, if_true, Bool.false_eq_true, if_false] <;>
        push_cast <;> field_simp
    rw [value]
    refine ⟨Binary64.isNearestTo_ofQuotient power finite, ?_⟩
    unfold Binary64.ofQuotient Binary64.ofSteps
    split <;> rfl

end Decimal

end RunReport
