import Mathlib.Data.Nat.Sqrt
import RunReport.Proofs.Number.Rounding
import RunReport.Proofs.Number.Value
import RunReport.Number.Arithmetic

/-!
# How large a result can be

A finite number of at most a given count of quanta is within that bound. Sums,
differences and products of numbers within bounds are within any representable
bound that the exact result keeps, so they are finite. A sum of finite numbers
may be infinite but never undefined, and clamping such a number between finite
bounds gives a finite one between them. The root of a number that is kept from
below zero is never negative, and infinite only if the number is.
-/

namespace RunReport.Binary64

/-- The number is finite and has at most the given count of quanta. -/
def Within (x : Binary64) (bound : Nat) : Prop :=
  ∃ negative quanta onGrid, x = .finite negative quanta onGrid ∧ quanta ≤ bound

/-- A power of two is on its grid. -/
theorem grid_dvd_two_pow (k : Nat) : 2 ^ gridExponent (2 ^ k) ∣ 2 ^ k := by
  have one := grid_dvd_of_significand k (by decide : 1 ≤ 2 ^ 53)
  rwa [Nat.one_mul] at one

/-- A power of two below the limit is representable. -/
theorem representable_two_pow {k : Nat} (h : k < limitExponent) : Representable (2 ^ k) :=
  ⟨Nat.pow_lt_pow_right (by decide) h, grid_dvd_two_pow k⟩

/-- A unit is representable. -/
theorem representable_unit : Representable unit := representable_two_pow (by decide)

/-- One is a unit. -/
theorem rounded_one : rounded (1 * unit) 1 = unit :=
  (congrArg (rounded · 1) (Nat.mul_comm 1 unit)).trans
    (rounded_mul representable_unit.2 Nat.one_pos)

/-- One is a number of one unit. -/
theorem ofNat_one : ofNat 1 = .finite false unit representable_unit :=
  ofQuotient_eq_finite representable_unit rounded_one

/-- A finite number is a sign and a count of quanta. -/
theorem exists_eq_finite {x : Binary64} (h : x.isFinite = true) :
    ∃ negative quanta onGrid, x = .finite negative quanta onGrid := by
  cases x with
  | finite negative quanta onGrid => exact ⟨negative, quanta, onGrid, rfl⟩
  | infinite negative => cases h
  | nan => cases h

/-- A finite number is within its own count of quanta. -/
theorem exists_within_of_isFinite {x : Binary64} (h : x.isFinite = true) :
    ∃ bound, Representable bound ∧ x.Within bound := by
  obtain ⟨negative, quanta, onGrid, rfl⟩ := exists_eq_finite h
  exact ⟨quanta, onGrid, negative, quanta, onGrid, rfl, le_rfl⟩

/-- The size of a signed count is the count. -/
theorem natAbs_signed (negative : Bool) (n : Nat) : (signed negative n).natAbs = n := by
  cases negative <;> simp [signed]

namespace Within

variable {x y : Binary64} {a b c : Nat}

/-- A number within a bound is finite. -/
theorem isFinite (h : x.Within a) : x.isFinite = true := by
  obtain ⟨s, m, onGrid, rfl, _⟩ := h
  rfl

/-- A number within a bound is within a greater one. -/
theorem mono (h : x.Within a) (le : a ≤ b) : x.Within b := by
  obtain ⟨s, m, onGrid, rfl, hm⟩ := h
  exact ⟨s, m, onGrid, rfl, hm.trans le⟩

/-- The sign does not matter. -/
theorem neg (h : x.Within a) : x.neg.Within a := by
  obtain ⟨s, m, onGrid, rfl, hm⟩ := h
  exact ⟨!s, m, onGrid, rfl, hm⟩

/-- Both zeros are within every bound. -/
theorem zero (negative : Bool) (a : Nat) : (Binary64.zero negative).Within a :=
  ⟨negative, 0, _, rfl, Nat.zero_le a⟩

/-- A quotient that keeps a representable bound is within it when it is rounded. -/
theorem ofQuotient {negative : Bool} {num den : Nat} (positive : 0 < den)
    (bound : Representable c) (h : num ≤ c * den) :
    (Binary64.ofQuotient negative num den).Within c := by
  have small : quotientSteps num den * 2 ^ gridExponent (num / den) ≤ c :=
    rounded_le positive bound.2 h
  unfold Binary64.ofQuotient ofSteps
  rw [dif_pos (Nat.lt_of_le_of_lt small bound.1)]
  exact ⟨negative, _, _, rfl, small⟩

/-- Sizes of terms add up at most. -/
theorem add (hx : x.Within a) (hy : y.Within b) (bound : Representable c) (le : a + b ≤ c) :
    (x.add y).Within c := by
  obtain ⟨s, m, _, rfl, hm⟩ := hx
  obtain ⟨t, n, _, rfl, hn⟩ := hy
  simp only [Binary64.add]
  split
  · exact zero _ _
  · have sum := Int.natAbs_add_le (signed s m) (signed t n)
    rw [natAbs_signed, natAbs_signed] at sum
    refine ofQuotient Nat.one_pos bound ?_
    rw [Nat.mul_one]
    exact sum.trans ((Nat.add_le_add hm hn).trans le)

/-- Sizes of a difference add up at most. -/
theorem sub (hx : x.Within a) (hy : y.Within b) (bound : Representable c) (le : a + b ≤ c) :
    (x.sub y).Within c := hx.add hy.neg bound le

/-- Sizes of factors multiply. -/
theorem mul (hx : x.Within a) (hy : y.Within b) (bound : Representable c)
    (le : a * b ≤ c * unit) : (x.mul y).Within c := by
  obtain ⟨s, m, _, rfl, hm⟩ := hx
  obtain ⟨t, n, _, rfl, hn⟩ := hy
  exact ofQuotient (Nat.two_pow_pos _) bound ((Nat.mul_le_mul hm hn).trans le)

end Within

/-- A sum of finite numbers is defined. -/
theorem add_ne_nan {x y : Binary64} (hx : x.isFinite = true) (hy : y.isFinite = true) :
    x.add y ≠ .nan := by
  obtain ⟨s, m, onGrid, rfl⟩ := exists_eq_finite hx
  obtain ⟨t, n, onGrid', rfl⟩ := exists_eq_finite hy
  simp only [add, ofQuotient, ofSteps]
  split
  · simp [zero]
  · split <;> simp

/-- A finite number is defined. -/
theorem ne_nan_of_isFinite {x : Binary64} (h : x.isFinite = true) : x ≠ .nan := by
  rintro rfl
  cases h

/-- A number that is defined has a place. -/
theorem exists_place_of_ne_nan {x : Binary64} (h : x ≠ .nan) : ∃ k : ℤ, x.place = some k := by
  cases x with
  | finite negative quanta onGrid => exact ⟨_, rfl⟩
  | infinite negative => exact ⟨_, rfl⟩
  | nan => exact absurd rfl h

/-- A number is finite exactly when its place is not an end of the line. -/
theorem isFinite_iff_of_place {x : Binary64} {k : ℤ} (h : x.place = some k) :
    x.isFinite = true ↔ -(limit : ℤ) < k ∧ k < limit := by
  have positive : (0 : ℤ) < limit := by exact_mod_cast limit_pos
  cases x with
  | finite negative quanta onGrid =>
    obtain rfl := Option.some.inj h
    have small : (quanta : ℤ) < limit := by exact_mod_cast onGrid.1
    refine iff_of_true rfl ?_
    cases negative <;> simp only [signed, if_true, if_false, Bool.false_eq_true] <;> omega
  | infinite negative =>
    obtain rfl := Option.some.inj h
    refine iff_of_false (by simp [isFinite]) ?_
    cases negative <;> simp only [signed, if_true, if_false, Bool.false_eq_true] <;> omega
  | nan => cases h

/-- Numbers compare as their places do. -/
theorem le_iff_of_place {x y : Binary64} {j k : ℤ} (hx : x.place = some j)
    (hy : y.place = some k) : x.le y = true ↔ j ≤ k := by
  rw [le, hx, hy]
  exact decide_eq_true_iff

/-- A finite number is not above itself. -/
theorem le_self_of_isFinite {x : Binary64} (h : x.isFinite = true) : x.le x = true := by
  obtain ⟨k, place, _⟩ := exists_place_of_isFinite h
  exact (le_iff_of_place place place).2 le_rfl

/-- Numbers are ordered transitively. -/
theorem le_trans {x y z : Binary64} (h : x.le y = true) (h' : y.le z = true) : x.le z = true := by
  unfold le at h h' ⊢
  cases hx : x.place with
  | none => simp [hx] at h
  | some i =>
    cases hy : y.place with
    | none => simp [hy] at h'
    | some j =>
      cases hz : z.place with
      | none => simp [hz] at h'
      | some k =>
        simp only [hx, hy, hz, decide_eq_true_eq] at h h' ⊢
        omega

/-- Numbers compare strictly as their places do. -/
theorem lt_iff_of_place {x y : Binary64} {j k : ℤ} (hx : x.place = some j)
    (hy : y.place = some k) : x.lt y = true ↔ j < k := by
  rw [lt, hx, hy]
  exact decide_eq_true_iff

/-- What is clamped between finite bounds is finite and lies between them, if
it is defined. -/
theorem clamp_between {x low high : Binary64} (defined : x ≠ .nan)
    (finiteLow : low.isFinite = true) (finiteHigh : high.isFinite = true)
    (ordered : low.le high = true) :
    (clamp x low high).isFinite = true ∧ low.le (clamp x low high) = true ∧
      (clamp x low high).le high = true := by
  obtain ⟨k, place⟩ := exists_place_of_ne_nan defined
  obtain ⟨i, placeLow, _⟩ := exists_place_of_isFinite finiteLow
  obtain ⟨j, placeHigh, _⟩ := exists_place_of_isFinite finiteHigh
  have le := (le_iff_of_place placeLow placeHigh).1 ordered
  have selfLow := (le_iff_of_place placeLow placeLow).2 le_rfl
  have selfHigh := (le_iff_of_place placeHigh placeHigh).2 le_rfl
  unfold clamp
  by_cases below : x.lt low = true
  · have inside : high.lt low = false :=
      Bool.eq_false_iff.2 fun above =>
        not_lt.2 le ((lt_iff_of_place placeHigh placeLow).1 above)
    simp only [if_pos below, inside, Bool.false_eq_true, if_false]
    exact ⟨finiteLow, selfLow, ordered⟩
  · have notBelow : i ≤ k := by
      by_contra less
      exact below ((lt_iff_of_place place placeLow).2 (by omega))
    by_cases above : high.lt x = true
    · simp only [if_neg below, if_pos above]
      exact ⟨finiteHigh, ordered, selfHigh⟩
    · have notAbove : k ≤ j := by
        by_contra more
        exact above ((lt_iff_of_place placeHigh place).2 (by omega))
      simp only [if_neg below, if_neg above]
      have boundLow := (isFinite_iff_of_place placeLow).1 finiteLow
      have boundHigh := (isFinite_iff_of_place placeHigh).1 finiteHigh
      exact ⟨(isFinite_iff_of_place place).2 ⟨by omega, by omega⟩,
        (le_iff_of_place placeLow place).2 notBelow, (le_iff_of_place place placeHigh).2 notAbove⟩

/-- Of two finite numbers one is not above the other, and these are the lesser and the greater. -/
theorem min_max_cases {x y : Binary64} (hx : x.isFinite = true) (hy : y.isFinite = true) :
    x.le y = true ∧ min y x = x ∧ max x y = y ∨ y.le x = true ∧ min y x = y ∧ max x y = x := by
  obtain ⟨j, placeX, _⟩ := exists_place_of_isFinite hx
  obtain ⟨k, placeY, _⟩ := exists_place_of_isFinite hy
  rw [min, max, placeX, placeY]
  by_cases le : j ≤ k
  · exact Or.inl ⟨(le_iff_of_place placeX placeY).2 le, if_pos le, if_pos le⟩
  · have less : k ≤ j := by omega
    exact Or.inr ⟨(le_iff_of_place placeY placeX).2 less, if_neg le, if_neg le⟩

/-- The lesser of two finite numbers is one of them and not above either. -/
theorem min_spec {x y : Binary64} (hx : x.isFinite = true) (hy : y.isFinite = true) :
    (min x y = x ∨ min x y = y) ∧ (min x y).le x = true ∧ (min x y).le y = true := by
  obtain ⟨le, least, -⟩ | ⟨le, least, -⟩ := min_max_cases hy hx
  · rw [least]
    exact ⟨Or.inr rfl, le, le_self_of_isFinite hy⟩
  · rw [least]
    exact ⟨Or.inl rfl, le_self_of_isFinite hx, le⟩

/-- The lesser of two finite numbers is finite. -/
theorem isFinite_min {x y : Binary64} (hx : x.isFinite = true) (hy : y.isFinite = true) :
    (min x y).isFinite = true := by
  rcases (min_spec hx hy).1 with left | right
  · rwa [left]
  · rwa [right]

/-- The greater of two finite numbers is one of them and not below either. -/
theorem max_spec {x y : Binary64} (hx : x.isFinite = true) (hy : y.isFinite = true) :
    (max x y = x ∨ max x y = y) ∧ x.le (max x y) = true ∧ y.le (max x y) = true := by
  obtain ⟨le, -, greatest⟩ | ⟨le, -, greatest⟩ := min_max_cases hx hy
  · rw [greatest]
    exact ⟨Or.inr rfl, le, le_self_of_isFinite hy⟩
  · rw [greatest]
    exact ⟨Or.inl rfl, le_self_of_isFinite hx, le⟩

/-- The greater of two finite numbers is finite. -/
theorem isFinite_max {x y : Binary64} (hx : x.isFinite = true) (hy : y.isFinite = true) :
    (max x y).isFinite = true := by
  rcases (max_spec hx hy).1 with left | right
  · rwa [left]
  · rwa [right]

/-- A root has half the binary digits, so it is finite far beyond the finite numbers. -/
theorem isFinite_ofRoot {n e : Nat} (small : n < (2 ^ (53 + e)) ^ 2)
    (finite : 53 + e < limitExponent) :
    ∃ root onGrid, ofRoot n = .finite false root onGrid := by
  have fine : gridExponent n.sqrt ≤ e := gridExponent_le_of_lt (Nat.sqrt_lt'.2 small)
  have below : rootSteps n * 2 ^ gridExponent n.sqrt < limit := by
    calc rootSteps n * 2 ^ gridExponent n.sqrt
        ≤ 2 ^ 53 * 2 ^ e :=
          Nat.mul_le_mul (rootSteps_le n) (Nat.pow_le_pow_right (by decide) fine)
      _ = 2 ^ (53 + e) := (Nat.pow_add _ _ _).symm
      _ < limit := Nat.pow_lt_pow_right (by decide) finite
  unfold ofRoot ofSteps
  rw [dif_pos below]
  exact ⟨_, _, rfl⟩

/-- The root of a finite number that is not negative is another one. -/
theorem exists_sqrt_eq {n : Nat} (onGrid : Representable n) :
    ∃ root onGrid', sqrt (.finite false n onGrid) = .finite false root onGrid' := by
  obtain ⟨e, half, finite⟩ : ∃ e, limitExponent + unitExponent ≤ (53 + e) * 2 ∧
      53 + e < limitExponent := ⟨1533, by decide, by decide⟩
  have small : n * unit < (2 ^ (53 + e)) ^ 2 := by
    have positive : 0 < unit := Nat.two_pow_pos _
    have below : n < limit := onGrid.1
    have digits : limit * unit = 2 ^ (limitExponent + unitExponent) := by
      rw [limit, unit, Nat.pow_add]
    calc n * unit < limit * unit := (Nat.mul_lt_mul_right positive).2 below
      _ = 2 ^ (limitExponent + unitExponent) := digits
      _ ≤ 2 ^ ((53 + e) * 2) := Nat.pow_le_pow_right (by decide) half
      _ = (2 ^ (53 + e)) ^ 2 := Nat.pow_mul 2 (53 + e) 2
  by_cases none : n = 0
  · exact ⟨n, onGrid, by rw [sqrt, if_pos none]⟩
  · rw [sqrt, if_neg none, if_neg Bool.false_ne_true]
    exact isFinite_ofRoot small finite

/-- A number without a negative sign is not below zero. -/
theorem max_zero_finite {n : Nat} (onGrid : Representable n) :
    (Binary64.finite false n onGrid).max (zero false) = .finite false n onGrid := by
  have place : (Binary64.finite false n onGrid).place = some (n : ℤ) := rfl
  have nothing : (zero false).place = some 0 := rfl
  by_cases none : n = 0
  · subst none
    rfl
  · rw [max, place, nothing]
    exact if_neg (by omega)

/-- Infinity is not below zero. -/
theorem max_zero_infinite : (infinite false).max (zero false) = .infinite false := by
  have place : (infinite false).place = some (limit : ℤ) := rfl
  have nothing : (zero false).place = some 0 := rfl
  have positive := limit_pos
  rw [max, place, nothing]
  exact if_neg (by omega)

/-- What is negative gives way to zero. -/
theorem max_zero_of_negative {x : Binary64} (h : x.isNegative = true) :
    x.max (zero false) = zero false := by
  have nothing : (zero false).place = some 0 := rfl
  cases x with
  | nan => cases h
  | finite negative n onGrid =>
    obtain rfl : negative = true := h
    have place : (Binary64.finite true n onGrid).place = some (-(n : ℤ)) := rfl
    rw [max, place, nothing]
    exact if_pos (by omega)
  | infinite negative =>
    obtain rfl : negative = true := h
    have place : (infinite true).place = some (-(limit : ℤ)) := rfl
    rw [max, place, nothing]
    exact if_pos (by omega)

/-- The root of a number that is kept from below zero: infinite for infinity,
else finite and not negative. -/
theorem sqrt_max_zero (x : Binary64) :
    x = .infinite false ∧ (x.max (zero false)).sqrt = .infinite false ∨
      x ≠ .infinite false ∧
        ∃ root onGrid, (x.max (zero false)).sqrt = .finite false root onGrid := by
  cases x with
  | nan => exact Or.inr ⟨by simp, 0, _, rfl⟩
  | finite negative n onGrid =>
    refine Or.inr ⟨by simp, ?_⟩
    cases negative with
    | true =>
      rw [max_zero_of_negative rfl]
      exact exists_sqrt_eq _
    | false =>
      rw [max_zero_finite]
      exact exists_sqrt_eq onGrid
  | infinite negative =>
    cases negative with
    | true =>
      refine Or.inr ⟨by simp, ?_⟩
      rw [max_zero_of_negative rfl]
      exact exists_sqrt_eq _
    | false =>
      rw [max_zero_infinite]
      exact Or.inl ⟨rfl, rfl⟩

/-- Such a root is not below zero. -/
theorem sqrt_max_zero_nonneg (x : Binary64) :
    (x.max (zero false)).sqrt.lt (zero false) = false := by
  have nothing : (zero false).place = some 0 := rfl
  rcases sqrt_max_zero x with ⟨_, root⟩ | ⟨_, n, onGrid, root⟩
  · have place : (Binary64.infinite false).place = some (limit : ℤ) := rfl
    rw [root]
    refine Bool.eq_false_iff.2 fun below => ?_
    have := (lt_iff_of_place place nothing).1 below
    omega
  · have place : (Binary64.finite false n onGrid).place = some (n : ℤ) := rfl
    rw [root]
    refine Bool.eq_false_iff.2 fun below => ?_
    have := (lt_iff_of_place place nothing).1 below
    omega

/-- Such a root of a finite number is finite. -/
theorem isFinite_sqrt_max_zero {x : Binary64} (h : x.isFinite = true) :
    (x.max (zero false)).sqrt.isFinite = true := by
  rcases sqrt_max_zero x with ⟨rfl, _⟩ | ⟨_, n, onGrid, root⟩
  · cases h
  · rw [root]
    rfl

end RunReport.Binary64
