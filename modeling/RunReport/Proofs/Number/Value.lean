import Mathlib.Algebra.Order.Field.Rat
import Mathlib.Data.Rat.Cast.Order
import Mathlib.Tactic.NormNum
import RunReport.Number.Arithmetic

/-!
# Exact values of binary64 numbers

A finite number stands for an exact rational, its signed count of quanta in
units. Comparing finite numbers compares their values, so the two zeros have
one value and every order of numbers can be read off the rationals.
-/

namespace RunReport.Binary64

/-- The rational that a finite number stands for; zero for all others. -/
def toRat : Binary64 → ℚ
  | .finite negative n _ => signed negative n / unit
  | .infinite _ => 0
  | .nan => 0

/-- A unit has quanta. -/
theorem unit_pos : (0 : ℚ) < unit := by
  have h : 0 < unit := Nat.two_pow_pos _
  exact_mod_cast h

/-- The place of a finite number on the line is its value in quanta. -/
theorem exists_place_of_isFinite {x : Binary64} (h : x.isFinite = true) :
    ∃ k : ℤ, x.place = some k ∧ x.toRat = k / unit := by
  cases x with
  | finite negative n onGrid => exact ⟨signed negative n, rfl, rfl⟩
  | infinite negative => exact absurd h (by simp [isFinite])
  | nan => exact absurd h (by simp [isFinite])

/-- Finite numbers are ordered as their values are. -/
theorem le_iff_toRat_le {x y : Binary64} (hx : x.isFinite = true) (hy : y.isFinite = true) :
    x.le y = true ↔ x.toRat ≤ y.toRat := by
  obtain ⟨j, xplace, xvalue⟩ := exists_place_of_isFinite hx
  obtain ⟨k, yplace, yvalue⟩ := exists_place_of_isFinite hy
  rw [xvalue, yvalue, div_le_div_iff_of_pos_right unit_pos, Int.cast_le, le, xplace, yplace]
  exact decide_eq_true_iff

/-- Of two finite numbers the first is below the second when the second is not up to it. -/
theorem lt_eq_not_le {x y : Binary64} (hx : x.isFinite = true) (hy : y.isFinite = true) :
    x.lt y = !y.le x := by
  obtain ⟨j, xplace, -⟩ := exists_place_of_isFinite hx
  obtain ⟨k, yplace, -⟩ := exists_place_of_isFinite hy
  rw [lt, le, xplace, yplace]
  exact (decide_eq_decide.2 Int.not_le.symm).trans decide_not

/-- Of two finite numbers the first is below the second or not above it. -/
theorem le_eq_false_iff_toRat_lt {x y : Binary64} (hx : x.isFinite = true)
    (hy : y.isFinite = true) : x.le y = false ↔ y.toRat < x.toRat := by
  rw [← not_le, ← le_iff_toRat_le hx hy, Bool.not_eq_true]

/-- Of two finite numbers the first is below the second as its value is. -/
theorem lt_iff_toRat_lt {x y : Binary64} (hx : x.isFinite = true) (hy : y.isFinite = true) :
    x.lt y = true ↔ x.toRat < y.toRat := by
  rw [lt_eq_not_le hx hy, Bool.not_eq_true', le_eq_false_iff_toRat_lt hy hx]

/-- Both zeros have the value zero. -/
@[simp]
theorem toRat_zero (negative : Bool) : (zero negative).toRat = 0 := by
  have none : signed negative 0 = 0 := by cases negative <;> rfl
  change ((signed negative 0 : ℤ) : ℚ) / unit = 0
  rw [none, Int.cast_zero, zero_div]

/-- One unit has the value one. -/
@[simp]
theorem toRat_ofNat_one : (ofNat 1).toRat = 1 := by
  have finite : (ofNat 1).isFinite = true := by decide +kernel
  have place : (ofNat 1).place = some (unit : ℤ) := by decide +kernel
  obtain ⟨k, found, value⟩ := exists_place_of_isFinite finite
  obtain rfl : k = (unit : ℤ) := Option.some.inj (found.symm.trans place)
  rw [value, Int.cast_natCast, div_self unit_pos.ne']

end RunReport.Binary64
