import RunReport.Proofs.Number.Shortest
import RunReport.Number.Numeral

/-!
# What a decimal numeral is rounded to

The powers of ten that are not computed would have given the same outcome, so
a numeral is always rounded to the number nearest to its exact value. Zeros at
the end of its digits are as good as a greater exponent, and the shortest
numeral of a number is rounded to that number.
-/

namespace RunReport.Decimal

/-- Three binary digits are less than a decimal one. -/
theorem two_pow_le_ten_pow (k : Nat) : 2 ^ (3 * k) ≤ 10 ^ k := by
  rw [Nat.pow_mul]
  exact Nat.pow_le_pow_left (by decide) k

/-- What is not finite has more than 342 digits before the point. -/
theorem limit_le_ten_pow {k : Nat} (large : 342 ≤ k) :
    Binary64.limit ≤ 10 ^ k * Binary64.unit := by
  have bits : Binary64.limitExponent ≤ 3 * k + Binary64.unitExponent := by
    unfold Binary64.limitExponent Binary64.unitExponent
    omega
  calc Binary64.limit ≤ 2 ^ (3 * k + Binary64.unitExponent) :=
        Nat.pow_le_pow_right (by decide) bits
    _ = 2 ^ (3 * k) * Binary64.unit := Nat.pow_add _ _ _
    _ ≤ 10 ^ k * Binary64.unit := Nat.mul_le_mul_right _ (two_pow_le_ten_pow k)

/-- Numerals beyond the exponents that are computed are rounded to infinity. -/
theorem ofQuotient_of_large {negative : Bool} {digits k : Nat} (notZero : digits ≠ 0)
    (large : 400 < k) :
    Binary64.ofQuotient negative (digits * 10 ^ k * Binary64.unit) 1 = .infinite negative := by
  apply Binary64.ofQuotient_eq_infinite
  have onGrid : 2 ^ Binary64.gridExponent Binary64.limit ∣ Binary64.limit := by decide +kernel
  have enough : Binary64.limit ≤ digits * 10 ^ k * Binary64.unit := by
    have beyond : 342 ≤ k := by omega
    refine (limit_le_ten_pow beyond).trans (Nat.mul_le_mul_right _ ?_)
    exact Nat.le_mul_of_pos_left _ (Nat.pos_of_ne_zero notZero)
  have mono := Binary64.rounded_mono Nat.one_pos Nat.one_pos (Nat.mul_le_mul_right 1 enough)
  have own := Binary64.rounded_mul onGrid Nat.one_pos
  rw [Nat.mul_one] at own
  rwa [own] at mono

/-- Numerals below the exponents that are computed are rounded to zero. -/
theorem ofQuotient_of_small {negative : Bool} {digits k : Nat}
    (small : digits.log2 + 400 < k) :
    Binary64.ofQuotient negative (digits * Binary64.unit) (10 ^ k) = Binary64.zero negative := by
  have half : Binary64.rounded 1 2 = 0 := by decide +kernel
  have bits : digits.log2 + 1 + Binary64.unitExponent + 1 ≤ 3 * k := by
    unfold Binary64.unitExponent
    omega
  have below : digits * Binary64.unit * 2 ≤ 1 * 10 ^ k := by
    calc digits * Binary64.unit * 2
        ≤ 2 ^ (digits.log2 + 1) * Binary64.unit * 2 :=
          Nat.mul_le_mul_right 2 (Nat.mul_le_mul_right _ Nat.lt_log2_self.le)
      _ = 2 ^ (digits.log2 + 1 + Binary64.unitExponent + 1) := by
          rw [Nat.pow_succ 2 (_ + _), Nat.pow_add 2 (_ + 1)]
          rfl
      _ ≤ 2 ^ (3 * k) := Nat.pow_le_pow_right (by decide) bits
      _ ≤ 10 ^ k := two_pow_le_ten_pow k
      _ = 1 * 10 ^ k := (Nat.one_mul _).symm
  have mono := Binary64.rounded_mono (Nat.pow_pos (by decide)) (by decide) below
  exact Binary64.ofQuotient_eq_finite _ (by omega)

/-- A numeral other than zero is rounded to the number nearest to its value. -/
theorem toBinary64_eq_ofQuotient {negative : Bool} {digits : Nat} (exponent : Int)
    (notZero : digits ≠ 0) :
    (⟨negative, digits, exponent⟩ : Decimal).toBinary64 =
      Binary64.ofQuotient negative (digits * 10 ^ exponent.toNat * Binary64.unit)
        (10 ^ (-exponent).toNat) := by
  unfold toBinary64
  dsimp only
  rw [if_neg notZero]
  by_cases large : 400 < exponent
  · have down : (-exponent).toNat = 0 := by omega
    rw [if_pos large, down, Nat.pow_zero, ofQuotient_of_large notZero (by omega)]
  rw [if_neg large]
  by_cases small : exponent + digits.log2 < -400
  · have up : exponent.toNat = 0 := by omega
    rw [if_pos small, up, Nat.pow_zero, Nat.mul_one, ofQuotient_of_small (by omega)]
  rw [if_neg small]
  by_cases whole : 0 ≤ exponent
  · have down : (-exponent).toNat = 0 := by omega
    rw [if_pos whole, down, Nat.pow_zero]
  · have up : exponent.toNat = 0 := by omega
    rw [if_neg whole, up, Nat.pow_zero, Nat.mul_one]

/-- Zeros at the end of the digits are as good as a greater exponent. -/
theorem toBinary64_mul_pow (negative : Bool) (digits k : Nat) (exponent : Int) :
    (⟨negative, digits * 10 ^ k, exponent⟩ : Decimal).toBinary64 =
      (⟨negative, digits, exponent + k⟩ : Decimal).toBinary64 := by
  by_cases zero : digits = 0
  · subst zero
    simp only [toBinary64, Nat.zero_mul, if_true]
  have power : 0 < 10 ^ k := Nat.pow_pos (by decide)
  have scaled : digits * 10 ^ k ≠ 0 := (Nat.mul_pos (Nat.pos_of_ne_zero zero) power).ne'
  rw [toBinary64_eq_ofQuotient exponent scaled, toBinary64_eq_ofQuotient (exponent + k) zero]
  refine Binary64.ofQuotient_congr (Nat.pow_pos (by decide)) (Nat.pow_pos (by decide)) ?_
  have exponents : k + exponent.toNat + (-(exponent + k)).toNat =
      (exponent + k).toNat + (-exponent).toNat := by omega
  calc digits * 10 ^ k * 10 ^ exponent.toNat * Binary64.unit * 10 ^ (-(exponent + k)).toNat
      = digits * 10 ^ (k + exponent.toNat + (-(exponent + k)).toNat) * Binary64.unit := by ring
    _ = digits * 10 ^ (exponent + k).toNat * Binary64.unit * 10 ^ (-exponent).toNat := by
      rw [exponents]
      ring

/-- The shortest numeral of a number is rounded to that number. -/
theorem toBinary64_shortestDecimal {tieUp negative : Bool} {n : Nat}
    (onGrid : Binary64.Representable n) (notZero : 0 < n) :
    (⟨negative, (Binary64.shortestDecimal tieUp n).1, (Binary64.shortestDecimal tieUp n).2⟩ :
      Decimal).toBinary64 = .finite negative n onGrid := by
  have inside := @Binary64.shortestDecimal_holds tieUp n onGrid.2 notZero
  have nearest := Binary64.rounded_eq_of_holds onGrid.2 notZero inside
  have digits : (Binary64.shortestDecimal tieUp n).1 ≠ 0 := by
    intro none
    rw [none, Nat.zero_mul, Nat.zero_mul] at nearest
    have nothing := Binary64.rounded_mul (Nat.dvd_zero (2 ^ Binary64.gridExponent 0))
      (Nat.pow_pos (by decide) : 0 < 10 ^ (-(Binary64.shortestDecimal tieUp n).2).toNat)
    rw [Nat.zero_mul] at nothing
    omega
  rw [toBinary64_eq_ofQuotient _ digits, Binary64.ofQuotient_eq_finite onGrid nearest]

end RunReport.Decimal
