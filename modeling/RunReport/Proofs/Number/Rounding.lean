import Mathlib.Data.Nat.Log
import Mathlib.Tactic.Linarith
import Mathlib.Tactic.Ring
import RunReport.Number.Binary64

/-!
# Rounding to the nearest number

The whole number nearest to a quotient is at most half a unit away, and even if
it is exactly that; this determines it. Rounding to 53 bits rounds to whole
steps of a grid that follows the size of the quotient. It keeps the order of
quotients and leaves representable counts as they are, so a quotient that does
not exceed a representable count does not exceed it when it is rounded.
-/

namespace RunReport

/-- A whole number is nearest to a quotient, and even if another one is as near. -/
structure IsNearest (num den r : Nat) : Prop where
  /-- The quotient is at most half a unit above. -/
  le_above : 2 * num ≤ (2 * r + 1) * den
  /-- The quotient is at most half a unit below. -/
  below_le : 2 * r * den ≤ 2 * num + den
  /-- Half a unit above, the number is even. -/
  even_above : 2 * num = (2 * r + 1) * den → r % 2 = 0
  /-- Half a unit below, the number is even. -/
  even_below : 2 * r * den = 2 * num + den → r % 2 = 0

/-- Rounding gives the nearest whole number. -/
theorem isNearest_roundHalfEven {den : Nat} (positive : 0 < den) (num : Nat) :
    IsNearest num den (roundHalfEven num den) := by
  have split := Nat.div_add_mod num den
  have small := Nat.mod_lt num positive
  unfold roundHalfEven
  dsimp only
  generalize num / den = low at split
  generalize num % den = rest at split small
  subst split
  split
  · constructor <;> intros <;> nlinarith
  split
  · constructor <;> intros <;> nlinarith
  have half : 2 * rest = den := by omega
  split
  · rename_i even
    exact ⟨by nlinarith, by nlinarith, fun _ => even, fun _ => even⟩
  · rename_i odd
    exact ⟨by nlinarith, by nlinarith, fun _ => by omega, fun _ => by omega⟩

/-- Nearest whole numbers are in the order of the quotients. -/
theorem IsNearest.le {a b c d r s : Nat} (hr : IsNearest a b r) (hs : IsNearest c d s)
    (hb : 0 < b) (hd : 0 < d) (h : a * d ≤ c * b) : r ≤ s := by
  by_contra above
  have next : s + 1 ≤ r := by omega
  have steps : 2 * (s + 1) * b ≤ 2 * r * b := Nat.mul_le_mul_right b (by omega)
  have low : (2 * s + 1) * b ≤ 2 * a := by linarith [hr.below_le]
  have first : (2 * s + 1) * b * d ≤ 2 * a * d := Nat.mul_le_mul_right d low
  have last : 2 * c * b ≤ (2 * s + 1) * d * b := Nat.mul_le_mul_right b hs.le_above
  have half : 2 * a = (2 * s + 1) * b := Nat.eq_of_mul_eq_mul_right hd (by linarith)
  have half' : 2 * c = (2 * s + 1) * d := Nat.eq_of_mul_eq_mul_right hb (by linarith)
  have same : r = s + 1 := by
    have atMost : r * b ≤ (s + 1) * b := by linarith [hr.below_le]
    exact Nat.le_antisymm (Nat.le_of_mul_le_mul_right atMost hb) next
  have even := hs.even_above half'
  have even' := hr.even_below (by rw [half, same]; ring)
  omega

/-- Rounding keeps the order of quotients. -/
theorem roundHalfEven_mono {a b c d : Nat} (hb : 0 < b) (hd : 0 < d) (h : a * d ≤ c * b) :
    roundHalfEven a b ≤ roundHalfEven c d :=
  (isNearest_roundHalfEven hb a).le (isNearest_roundHalfEven hd c) hb hd h

/-- Rounding gives the only nearest whole number. -/
theorem roundHalfEven_eq_of_isNearest {num den r : Nat} (positive : 0 < den)
    (h : IsNearest num den r) : roundHalfEven num den = r :=
  Nat.le_antisymm ((isNearest_roundHalfEven positive num).le h positive positive le_rfl)
    (h.le (isNearest_roundHalfEven positive num) positive positive le_rfl)

/-- A whole quotient is left as it is. -/
theorem roundHalfEven_mul {den : Nat} (positive : 0 < den) (n : Nat) :
    roundHalfEven (n * den) den = n := by
  refine roundHalfEven_eq_of_isNearest positive ⟨by nlinarith, by nlinarith, ?_, ?_⟩
  · intro half
    nlinarith
  · intro half
    nlinarith

namespace Binary64

/-- The grid does not get finer with the size. -/
theorem gridExponent_mono {m n : Nat} (h : m ≤ n) : gridExponent m ≤ gridExponent n := by
  unfold gridExponent
  rw [Nat.log2_eq_log_two, Nat.log2_eq_log_two]
  exact Nat.sub_le_sub_right (Nat.log_mono_right h) 52

/-- On a grid of more than single quanta a count has 53 bits. -/
theorem two_pow_le_of_gridExponent {n : Nat} (coarse : 0 < gridExponent n) :
    2 ^ (52 + gridExponent n) ≤ n := by
  have large : n.log2 = 52 + gridExponent n := by
    unfold gridExponent at coarse ⊢
    omega
  have positive : n ≠ 0 := by
    rintro rfl
    revert coarse
    decide
  exact (Nat.le_log2 positive).1 large.ge

/-- A count is less than the power of two that ends its grid. -/
theorem lt_two_pow_gridExponent (n : Nat) : n < 2 ^ (53 + gridExponent n) := by
  rw [Nat.pow_add, Nat.mul_comm, Nat.mul_comm]
  exact (Nat.div_lt_iff_lt_mul (Nat.two_pow_pos _)).1 (grid_quotient_lt n)

/-- A count with at most 53 bits on a grid has a grid at most as coarse. -/
theorem gridExponent_le_of_lt {n e : Nat} (h : n < 2 ^ (53 + e)) : gridExponent n ≤ e := by
  by_cases zero : n = 0
  · subst zero
    exact Nat.zero_le _
  · have := (Nat.log2_lt zero).2 h
    unfold gridExponent
    omega

/-- A count of at least 53 bits on a grid has a grid at least as coarse. -/
theorem le_gridExponent_of_le {n e : Nat} (h : 2 ^ (52 + e) ≤ n) : e ≤ gridExponent n := by
  have mono := gridExponent_mono h
  have own : gridExponent (2 ^ (52 + e)) = e := by
    unfold gridExponent
    rw [Nat.log2_two_pow]
    omega
  rwa [own] at mono

/-- The count of quanta that `num / den` quanta are rounded to. -/
def rounded (num den : Nat) : Nat := quotientSteps num den * 2 ^ gridExponent (num / den)

/-- Rounding to 53 bits keeps the order of quotients. -/
theorem rounded_mono {a b c d : Nat} (hb : 0 < b) (hd : 0 < d) (h : a * d ≤ c * b) :
    rounded a b ≤ rounded c d := by
  have floors : a / b ≤ c / d := by
    rw [Nat.le_div_iff_mul_le hd]
    have low : a / b * b ≤ a := Nat.div_mul_le_self a b
    exact Nat.le_of_mul_le_mul_right (by nlinarith) hb
  have grids := gridExponent_mono floors
  unfold rounded
  rcases Nat.eq_or_lt_of_le grids with same | finer
  · rw [same]
    refine Nat.mul_le_mul_right _ ?_
    unfold quotientSteps
    rw [same]
    have pos := Nat.two_pow_pos (gridExponent (c / d))
    exact roundHalfEven_mono (Nat.mul_pos hb pos) (Nat.mul_pos hd pos) (by nlinarith)
  · have top : quotientSteps a b * 2 ^ gridExponent (a / b) ≤ 2 ^ (52 + gridExponent (c / d)) := by
      calc quotientSteps a b * 2 ^ gridExponent (a / b)
          ≤ 2 ^ 53 * 2 ^ gridExponent (a / b) :=
            Nat.mul_le_mul_right _ (quotientSteps_le a b)
        _ = 2 ^ (53 + gridExponent (a / b)) := (Nat.pow_add _ _ _).symm
        _ ≤ 2 ^ (52 + gridExponent (c / d)) := Nat.pow_le_pow_right (by decide) (by omega)
    refine top.trans ?_
    have bottom : 2 ^ 52 ≤ quotientSteps c d := by
      refine le_trans ?_ (roundHalfEven_bounds c (d * 2 ^ gridExponent (c / d))).1
      rw [← Nat.div_div_eq_div_mul, Nat.le_div_iff_mul_le (Nat.two_pow_pos _), ← Nat.pow_add]
      exact two_pow_le_of_gridExponent (by omega)
    rw [Nat.pow_add]
    exact Nat.mul_le_mul_right _ bottom

/-- A representable count is left as it is. -/
theorem rounded_mul {n den : Nat} (onGrid : 2 ^ gridExponent n ∣ n) (positive : 0 < den) :
    rounded (n * den) den = n := by
  obtain ⟨steps, split⟩ := onGrid
  unfold rounded quotientSteps
  rw [Nat.mul_div_cancel n positive]
  have pos := Nat.mul_pos positive (Nat.two_pow_pos (gridExponent n))
  have whole : n * den = steps * (den * 2 ^ gridExponent n) := by
    nth_rewrite 1 [split]
    ring
  rw [whole, roundHalfEven_mul pos, Nat.mul_comm]
  exact split.symm

/-- Equal quotients are rounded alike. -/
theorem rounded_congr {a b c d : Nat} (hb : 0 < b) (hd : 0 < d) (h : a * d = c * b) :
    rounded a b = rounded c d :=
  Nat.le_antisymm (rounded_mono hb hd h.le) (rounded_mono hd hb h.ge)

/-- A quotient that does not exceed a representable count does not exceed it
when it is rounded. -/
theorem rounded_le {num den bound : Nat} (positive : 0 < den)
    (onGrid : 2 ^ gridExponent bound ∣ bound) (h : num ≤ bound * den) :
    rounded num den ≤ bound := by
  have mono := rounded_mono positive positive (Nat.mul_le_mul_right den h)
  rwa [rounded_mul onGrid positive] at mono

/-- A quotient that is rounded to a representable count becomes that number. -/
theorem ofQuotient_eq_finite {negative : Bool} {num den n : Nat} (onGrid : Representable n)
    (h : rounded num den = n) : ofQuotient negative num den = .finite negative n onGrid := by
  subst h
  unfold ofQuotient ofSteps
  rw [dif_pos (show quotientSteps num den * 2 ^ gridExponent (num / den) < limit from onGrid.1)]
  rfl

/-- A quotient that is rounded to the limit or beyond becomes infinite. -/
theorem ofQuotient_eq_infinite {negative : Bool} {num den : Nat} (h : limit ≤ rounded num den) :
    ofQuotient negative num den = .infinite negative := by
  unfold ofQuotient ofSteps
  exact dif_neg (Nat.not_lt.2 h)

/-- What a quotient is rounded to is on its own grid. -/
theorem grid_dvd_rounded (num den : Nat) :
    2 ^ gridExponent (rounded num den) ∣ rounded num den :=
  grid_dvd_of_significand _ (quotientSteps_le num den)

/-- Equal quotients become the same number. -/
theorem ofQuotient_congr {negative : Bool} {a b c d : Nat} (hb : 0 < b) (hd : 0 < d)
    (h : a * d = c * b) : ofQuotient negative a b = ofQuotient negative c d := by
  have same := rounded_congr hb hd h
  by_cases small : rounded a b < limit
  · have onGrid : Representable (rounded a b) := ⟨small, grid_dvd_rounded a b⟩
    rw [ofQuotient_eq_finite onGrid rfl, ofQuotient_eq_finite onGrid same.symm]
  · have large := Nat.not_lt.1 small
    rw [ofQuotient_eq_infinite large, ofQuotient_eq_infinite (same ▸ large)]

end Binary64

end RunReport
