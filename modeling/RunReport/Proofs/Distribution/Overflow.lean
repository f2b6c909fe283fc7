import RunReport.Proofs.Distribution.Merging
import RunReport.Proofs.Number.Bounds

/-!
# How large pooled values can be

The shares of two counts in their sum are between zero and one, also after they
are rounded. So the means of numbers within a bound are within twice the bound,
and the spread of a pooled population is finite unless squares overflow, which
takes members beyond `2^500`.
-/

namespace RunReport

namespace Binary64

/-- A count whose size leaves room for its quanta is rounded to a finite number. -/
theorem ofNat_eq {n k : Nat} (h : n < 2 ^ k) (room : k + unitExponent < limitExponent) :
    ∃ onGrid, ofNat n = .finite false (rounded (n * unit) 1) onGrid := by
  have bound : Representable (2 ^ (k + unitExponent)) := representable_two_pow room
  have exact : n * unit ≤ 2 ^ (k + unitExponent) * 1 := by
    rw [Nat.pow_add, Nat.mul_one]
    exact Nat.mul_le_mul_right _ h.le
  have small := rounded_le Nat.one_pos bound.2 exact
  have onGrid : Representable (rounded (n * unit) 1) :=
    ⟨Nat.lt_of_le_of_lt small bound.1, grid_dvd_rounded _ _⟩
  exact ⟨onGrid, ofQuotient_eq_finite onGrid rfl⟩

/-- A number of at most a power of two is within that power. -/
theorem Within.ofNat {n k : Nat} (h : n ≤ 2 ^ k) (room : k + unitExponent < limitExponent) :
    (Binary64.ofNat n).Within (2 ^ k * unit) := by
  have bound : Representable (2 ^ k * unit) := by
    rw [unit, ← Nat.pow_add]
    exact representable_two_pow room
  refine Within.ofQuotient Nat.one_pos bound ?_
  rw [Nat.mul_one]
  exact Nat.mul_le_mul_right unit h

/-- A quotient of at least one quantum is not rounded to zero. -/
theorem rounded_pos {num den : Nat} (positive : 0 < den) (h : den ≤ num) :
    0 < rounded num den := by
  have one : rounded 1 1 = 1 := by decide
  have mono : rounded 1 1 ≤ rounded num den := rounded_mono Nat.one_pos positive (by omega)
  rwa [one] at mono

/-- A count that is not zero is rounded to a unit at least. -/
theorem unit_le_rounded_count {n : Nat} (some : 1 ≤ n) : unit ≤ rounded (n * unit) 1 := by
  have least : rounded (1 * unit) 1 ≤ rounded (n * unit) 1 :=
    rounded_mono Nat.one_pos Nat.one_pos (Nat.mul_le_mul_right 1 (Nat.mul_le_mul_right unit some))
  rwa [rounded_one] at least

/-- A count that is not zero is not rounded to zero. -/
theorem rounded_count_pos {n : Nat} (some : 1 ≤ n) : 0 < rounded (n * unit) 1 :=
  Nat.lt_of_lt_of_le (Nat.two_pow_pos _) (unit_le_rounded_count some)

/-- A count of 64 bits has fewer units than a unit has quanta. -/
theorem rounded_total_le {n : Nat} (fits : n < 2 ^ 64) : rounded (n * unit) 1 ≤ unit * unit := by
  have onGrid : 2 ^ gridExponent (unit * unit) ∣ unit * unit := by
    rw [unit, ← Nat.pow_add]
    exact grid_dvd_two_pow _
  have room : 2 ^ 64 ≤ unit := Nat.pow_le_pow_right (by decide) (by decide)
  refine rounded_le Nat.one_pos onGrid ?_
  rw [Nat.mul_one]
  exact Nat.mul_le_mul_right unit (fits.le.trans room)

/-- A weighted number stays within its bound. -/
theorem Within.weigh {w x : Binary64} {c : Nat} (hw : w.Within unit) (hx : x.Within c)
    (bound : Representable c) : (w.mul x).Within c :=
  hw.mul hx bound (Nat.mul_comm unit c).le

end Binary64

namespace Distribution

open Binary64

variable {a b : UInt64}

/-- A share is a quotient of two rounded counts. -/
theorem shareOf_eq (a b : UInt64) :
    (shareOf a b : Binary64) = (ofNat a.toNat).div (ofNat (a.toNat + b.toNat)) := by
  have quotient : ∀ x y : Binary64, Arithmetic.div x y = x.div y := fun _ _ => rfl
  have count : ∀ n, (Arithmetic.ofCount n : Binary64) = ofNat n := fun _ => rfl
  rw [shareOf, quotient, count, count]

/-- The share of the first of two counts is between zero and one, and above zero
if there is something to share. -/
theorem exists_shareOf_eq (some : ¬ (a = 0 ∧ b = 0)) (fits : a.toNat + b.toNat < 2 ^ 64) :
    ∃ m onGrid, (shareOf a b : Binary64) = .finite false m onGrid ∧ m ≤ unit ∧
      (a ≠ 0 → 0 < m) := by
  have total : 1 ≤ a.toNat + b.toNat := by
    by_contra none
    refine some ⟨?_, ?_⟩
    · exact UInt64.toNat_inj.1 (show a.toNat = 0 by omega)
    · exact UInt64.toNat_inj.1 (show b.toNat = 0 by omega)
  obtain ⟨onGridA, part⟩ := ofNat_eq (show a.toNat < 2 ^ 64 by omega) (by decide)
  obtain ⟨onGridB, whole⟩ := ofNat_eq fits (by decide)
  have less : rounded (a.toNat * unit) 1 ≤ rounded ((a.toNat + b.toNat) * unit) 1 :=
    rounded_mono Nat.one_pos Nat.one_pos
      (Nat.mul_le_mul_right 1 (Nat.mul_le_mul_right unit (Nat.le_add_right _ _)))
  have positive := rounded_count_pos total
  have share : rounded (rounded (a.toNat * unit) 1 * unit)
      (rounded ((a.toNat + b.toNat) * unit) 1) ≤ unit :=
    rounded_le positive representable_unit.2
      ((Nat.mul_le_mul_right unit less).trans (Nat.mul_comm _ unit).le)
  have onGrid : Representable (rounded (rounded (a.toNat * unit) 1 * unit)
      (rounded ((a.toNat + b.toNat) * unit) 1)) :=
    ⟨Nat.lt_of_le_of_lt share representable_unit.1, grid_dvd_rounded _ _⟩
  refine ⟨_, onGrid, ?_, share, fun present => ?_⟩
  · rw [shareOf_eq, part, whole, div, if_neg positive.ne']
    exact ofQuotient_eq_finite onGrid rfl
  · have count : 1 ≤ a.toNat := Nat.pos_of_ne_zero fun none => present (UInt64.toNat_inj.1 none)
    exact rounded_pos positive ((rounded_total_le fits).trans
      (Nat.mul_le_mul_right unit (unit_le_rounded_count count)))

/-- The share of the first of two counts is within one. -/
theorem within_shareOf (some : ¬ (a = 0 ∧ b = 0)) (fits : a.toNat + b.toNat < 2 ^ 64) :
    (shareOf a b : Binary64).Within unit := by
  obtain ⟨m, onGrid, share, le, _⟩ := exists_shareOf_eq some fits
  exact ⟨false, m, onGrid, share, le⟩

/-- What a share leaves of one is between zero and one. -/
theorem exists_one_sub_shareOf_eq (some : ¬ (a = 0 ∧ b = 0))
    (fits : a.toNat + b.toNat < 2 ^ 64) :
    ∃ m onGrid, (ofNat 1).sub (shareOf a b) = .finite false m onGrid ∧ m ≤ unit := by
  obtain ⟨m, onGrid, share, le, _⟩ := exists_shareOf_eq some fits
  have rest : signed false unit + signed (!false) m = ((unit - m : Nat) : Int) := by
    simp only [signed, Bool.not_false, if_true, Bool.false_eq_true, if_false]
    omega
  have small : rounded (unit - m) 1 ≤ unit :=
    rounded_le Nat.one_pos representable_unit.2 (by omega)
  rw [share, ofNat_one, sub, neg, add, rest]
  split
  · exact ⟨0, ⟨limit_pos, Nat.dvd_zero _⟩, rfl, Nat.zero_le _⟩
  · have sign : decide (((unit - m : Nat) : Int) < 0) = false :=
      decide_eq_false (not_lt.2 (Int.natCast_nonneg _))
    have representable : Representable (rounded (unit - m) 1) :=
      ⟨small.trans_lt representable_unit.1, grid_dvd_rounded _ _⟩
    rw [sign, Int.natAbs_natCast]
    exact ⟨_, representable, ofQuotient_eq_finite representable rfl, small⟩

/-- What a share leaves of one is within one. -/
theorem within_one_sub_shareOf (some : ¬ (a = 0 ∧ b = 0)) (fits : a.toNat + b.toNat < 2 ^ 64) :
    ((ofNat 1).sub (shareOf a b)).Within unit := by
  obtain ⟨m, onGrid, rest, le⟩ := exists_one_sub_shareOf_eq some fits
  exact ⟨false, m, onGrid, rest, le⟩

variable {wa wb x y : Binary64} {c : Nat}

/-- The weighted mean of two numbers. -/
theorem weighted_eq (wa wb x y : Binary64) :
    weighted wa wb x y = (wa.mul x).add (wb.mul y) := rfl

/-- The weighted mean of finite numbers is defined. -/
theorem weighted_ne_nan (ha : wa.Within unit) (hb : wb.Within unit) (hx : x.isFinite = true)
    (hy : y.isFinite = true) : weighted wa wb x y ≠ .nan := by
  obtain ⟨_, boundX, withinX⟩ := exists_within_of_isFinite hx
  obtain ⟨_, boundY, withinY⟩ := exists_within_of_isFinite hy
  rw [weighted_eq]
  exact add_ne_nan (ha.weigh withinX boundX).isFinite (hb.weigh withinY boundY).isFinite

/-- The weighted mean of numbers within a power of two is within its double. -/
theorem within_weighted {k : Nat} (ha : wa.Within unit) (hb : wb.Within unit)
    (hx : x.Within (2 ^ k)) (hy : y.Within (2 ^ k)) (small : k + 1 < limitExponent) :
    (weighted wa wb x y).Within (2 ^ (k + 1)) := by
  have bound : Representable (2 ^ k) := representable_two_pow (by omega)
  have double : 2 ^ k + 2 ^ k ≤ 2 ^ (k + 1) := by
    rw [Nat.pow_succ]
    omega
  rw [weighted_eq]
  exact (ha.weigh hx bound).add (hb.weigh hy bound) (representable_two_pow small) double

/-- The square of a spread about a centre: its own and that of the distance. -/
def squareAbout (spread centrality centre : Binary64) : Binary64 :=
  (spread.mul spread).add ((centrality.sub centre).mul (centrality.sub centre))

/-- A part of the pooled square is such a square, weighted. -/
theorem pooledPart_eq (w spread centrality centre : Binary64) :
    pooledPart w spread centrality centre = w.mul (squareAbout spread centrality centre) := rfl

/-- The square of a spread and a centre within a power of two about a centre within
its double is within twice the square of four times the power. -/
theorem within_squareAbout {spread centrality centre : Binary64} {k j : Nat}
    (hs : spread.Within (2 ^ k)) (hc : centrality.Within (2 ^ k))
    (hm : centre.Within (2 ^ (k + 1))) (square : (k + 2) + (k + 2) ≤ j + unitExponent)
    (larger : k + 2 < limitExponent) (small : j + 1 < limitExponent) :
    (squareAbout spread centrality centre).Within (2 ^ (j + 1)) := by
  have times : ∀ i, i + i ≤ j + unitExponent → 2 ^ i * 2 ^ i ≤ 2 ^ j * unit := by
    intro i le
    rw [unit, ← Nat.pow_add, ← Nat.pow_add]
    exact Nat.pow_le_pow_right (by decide) le
  have double : ∀ i, 2 ^ i + 2 ^ i ≤ 2 ^ (i + 1) := by
    intro i
    rw [Nat.pow_succ]
    omega
  have bound : Representable (2 ^ j) := representable_two_pow (by omega)
  have own := hs.mul hs bound (times k (by omega))
  have hc' := hc.mono (Nat.pow_le_pow_right (by decide) (by omega : k ≤ k + 1))
  have distance := hc'.sub hm (representable_two_pow larger) (double (k + 1))
  have squared := distance.mul distance bound (times (k + 2) square)
  exact own.add squared (representable_two_pow small) (double j)

/-- Weighted, that square is within the same bound. -/
theorem within_pooledPart {w spread centrality centre : Binary64} {k j : Nat}
    (hw : w.Within unit) (hs : spread.Within (2 ^ k)) (hc : centrality.Within (2 ^ k))
    (hm : centre.Within (2 ^ (k + 1))) (square : (k + 2) + (k + 2) ≤ j + unitExponent)
    (larger : k + 2 < limitExponent) (small : j + 1 < limitExponent) :
    (pooledPart w spread centrality centre).Within (2 ^ (j + 1)) := by
  rw [pooledPart_eq]
  exact hw.weigh (within_squareAbout hs hc hm square larger small) (representable_two_pow small)

end Distribution

end RunReport
