import RunReport.Proofs.Number.FixedPoint

/-!
# Numerals that are read and written again

The numeral of a number with a count of places is read as a number that is as near to
the numeral as the first one was, or nearer. Written with as many places it gives the
same text: if it lies half way to the next numeral, so did the first number, and the
last digit is even on both sides. This holds of every nearest number, whichever of two
is taken, and none of them is beyond the finite numbers.
-/

namespace RunReport.Binary64

/-- The count of quanta of the largest finite number. -/
def greatest : ℕ := (2 ^ 1024 - 2 ^ 971) * unit

/-- The largest finite number is representable. -/
theorem representable_greatest : Representable greatest := by decide +kernel

/-- On its own grid a count below a power of two is at most the last 53-bit number. -/
theorem le_of_grid_dvd {n e : ℕ} (onGrid : 2 ^ gridExponent n ∣ n) (below : n < 2 ^ 53 * 2 ^ e) :
    n ≤ (2 ^ 53 - 1) * 2 ^ e := by
  have positive := Nat.two_pow_pos e
  by_contra above
  have more := Nat.not_le.1 above
  have large : 2 ^ (52 + e) ≤ n := by
    rw [Nat.pow_add]
    exact (Nat.mul_le_mul_right _ (by decide)).trans more.le
  obtain ⟨k, rfl⟩ := (Nat.pow_dvd_pow 2 (le_gridExponent_of_le large)).trans onGrid
  rw [Nat.mul_comm _ (2 ^ e)] at below more
  have upper := Nat.lt_of_mul_lt_mul_left below
  have lower := Nat.lt_of_mul_lt_mul_left more
  omega

/-- No representable count is larger. -/
theorem le_greatest {n : ℕ} (onGrid : Representable n) : n ≤ greatest := by
  obtain ⟨e, last, next⟩ : ∃ e, greatest = (2 ^ 53 - 1) * 2 ^ e ∧ limit = 2 ^ 53 * 2 ^ e :=
    ⟨2045, by decide +kernel, by decide +kernel⟩
  have small : n < limit := onGrid.1
  rw [next] at small
  rw [last]
  exact le_of_grid_dvd onGrid.2 small

/-- The numeral of a representable count is not beyond the largest finite number. -/
theorem fixedSteps_le {n : ℕ} (onGrid : Representable n) (places : ℕ) :
    fixedSteps n places * unit ≤ greatest * 10 ^ places := by
  have quantum : 0 < unit := Nat.two_pow_pos _
  obtain ⟨most, top⟩ : ∃ most, greatest = most * unit := ⟨_, rfl⟩
  have whole : fixedSteps greatest places = most * 10 ^ places := by
    rw [fixedSteps, top, Nat.mul_right_comm, roundHalfEven_mul quantum]
  have mono : fixedSteps n places ≤ fixedSteps greatest places :=
    roundHalfEven_mono quantum quantum
      (Nat.mul_le_mul_right unit (Nat.mul_le_mul_right (10 ^ places) (le_greatest onGrid)))
  calc fixedSteps n places * unit ≤ most * 10 ^ places * unit :=
        Nat.mul_le_mul_right unit (mono.trans whole.le)
    _ = greatest * 10 ^ places := by rw [top, Nat.mul_right_comm]

/-- The numeral of a finite number is read as a finite number. -/
theorem isFinite_toBinary64_fixed (s : Bool) {n : ℕ} (onGrid : Representable n) (places : ℕ) :
    (⟨s, fixedSteps n places, -(places : ℤ)⟩ : Decimal).toBinary64.isFinite = true := by
  by_cases none : fixedSteps n places = 0
  · rw [Decimal.toBinary64, if_pos none]
    rfl
  · have up : (-(places : ℤ)).toNat = 0 := by omega
    have down : (- -(places : ℤ)).toNat = places := by omega
    rw [Decimal.toBinary64_eq_ofQuotient _ none, up, down, Nat.pow_zero, Nat.mul_one]
    exact (Within.ofQuotient (Nat.pow_pos (by decide)) representable_greatest
      (fixedSteps_le onGrid places)).isFinite

/-- A count that is as near to the numeral of another one has the same numeral. -/
theorem fixedSteps_eq_of_nearer {m n places : ℕ}
    (nearer : |(m * 10 ^ places : ℕ) - (fixedSteps n places : ℤ) * unit| ≤
      |(n * 10 ^ places : ℕ) - (fixedSteps n places : ℤ) * unit|) :
    fixedSteps m places = fixedSteps n places := by
  have quantum : 0 < unit := Nat.two_pow_pos _
  exact roundHalfEven_eq_of_isNearest quantum
    ((isNearest_roundHalfEven quantum _).of_nearer quantum nearer)

/-- A number that is nearest to the numeral of another one, with the same sign, has the
same text. -/
theorem fixed_eq_of_isNearestTo {s : Bool} {n places : ℕ} (onGrid : Representable n)
    {w : Binary64}
    (nearest : w.IsNearestTo (⟨s, fixedSteps n places, -(places : ℤ)⟩ : Decimal).toRat)
    (sign : w.isNegative = s) :
    w.fixed places = (Binary64.finite s n onGrid).fixed places := by
  obtain ⟨finite, least⟩ := nearest
  have nearer := least (.finite s n onGrid) rfl
  obtain ⟨t, m, onGrid', rfl⟩ := exists_eq_finite finite
  obtain rfl : t = s := sign
  have quantum : 0 < unit := Nat.two_pow_pos _
  have scale : (0 : ℚ) < 10 ^ places * unit := mul_pos (by positivity) unit_pos
  simp only [toRat, Decimal.toRat_places, abs_div_sub_step _ _ _ _ quantum] at nearer
  rw [div_le_div_iff_of_pos_right scale, Int.cast_le, abs_signed_sub, abs_signed_sub] at nearer
  simp only [fixed, fixedSteps_eq_of_nearer nearer]

/-- Up to the most places that a numeral can have, every finite number is written as a
numeral, and whatever number of the same sign is nearest to that numeral is written as
the same text. The numeral is read as such a number. With more places nothing is
written. -/
theorem written_again {x : Binary64} (finite : x.isFinite = true) {precision : ℤ}
    (nonneg : 0 ≤ precision) :
    (precision ≤ placesLimit → ∃ text d, x.writeFixed precision = .ok text ∧
      Decimal.read text.toList = some d ∧
      (∀ w : Binary64, w.IsNearestTo d.toRat → w.isNegative = x.isNegative →
        w.writeFixed precision = .ok text) ∧
      d.toBinary64.IsNearestTo d.toRat ∧ d.toBinary64.isNegative = x.isNegative ∧
      d.toBinary64.writeFixed precision = .ok text) ∧
    (placesLimit < precision → x.writeFixed precision = .error .crashed) := by
  refine ⟨fun few => ?_, writeFixed_of_many x⟩
  obtain ⟨s, n, onGrid, rfl⟩ := exists_eq_finite finite
  obtain ⟨nearest, sign⟩ := Decimal.isNearestTo_toBinary64
    (isFinite_toBinary64_fixed s onGrid precision.toNat)
  have alike : ∀ w : Binary64, w.IsNearestTo
      (⟨s, fixedSteps n precision.toNat, -(precision.toNat : ℤ)⟩ : Decimal).toRat →
      w.isNegative = s → w.writeFixed precision =
        .ok ((Binary64.finite s n onGrid).fixed precision.toNat) := fun w near same => by
    rw [writeFixed_eq nonneg few, fixed_eq_of_isNearestTo onGrid near same]
  exact ⟨_, _, writeFixed_eq nonneg few, (roundsTo_fixed s onGrid _).reads, alike, nearest,
    sign, alike _ nearest sign⟩

/-- A quarter is written with one place, read and written again. -/
theorem written_again_quarter : ∃ text d, (quarter true).writeFixed 1 = .ok text ∧
    Decimal.read text.toList = some d ∧ d.toBinary64.writeFixed 1 = .ok text := by
  have finite : (quarter true).isFinite = true := by decide +kernel
  obtain ⟨text, d, written, read, _, _, _, again⟩ :=
    (written_again finite (by decide : (0 : ℤ) ≤ 1)).1 (by decide)
  exact ⟨text, d, written, read, again⟩

/-- With more places than a numeral can have, one gives no text that could be read. -/
theorem one_not_written_again : (ofNat 1).isFinite = true ∧ (0 : ℤ) ≤ 65536 ∧
    ¬ ∃ text d, (ofNat 1).writeFixed 65536 = .ok text ∧
      Decimal.read text.toList = some d ∧ d.toBinary64.writeFixed 65536 = .ok text := by
  refine ⟨by decide +kernel, by decide, ?_⟩
  rintro ⟨text, d, written, _⟩
  rw [writeFixed_of_many _ (by decide)] at written
  cases written

end RunReport.Binary64
