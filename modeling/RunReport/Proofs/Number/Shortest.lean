import RunReport.Proofs.Number.Rounding
import RunReport.Number.Shortest

/-!
# The shortest numeral determines its number

Every quotient in the rounding interval of a count of quanta is rounded to that
count. On the decimal grid of seventeen digits the nearer neighbour of a count
lies within its interval, so the search for the shortest numeral always ends
with a hit, and what it finds is rounded to the count it was found for.
-/

namespace RunReport.Binary64

/-- A quotient of 53 bits on a grid is rounded to the nearest step of that grid. -/
theorem rounded_eq_of_isNearest {num den s e : Nat} (positive : 0 < den)
    (coarse : e = 0 ∨ 2 ^ (52 + e) * den ≤ num) (fine : num < 2 ^ (53 + e) * den)
    (near : IsNearest num (den * 2 ^ e) s) : rounded num den = s * 2 ^ e := by
  have grid : gridExponent (num / den) = e := by
    refine Nat.le_antisymm (gridExponent_le_of_lt ((Nat.div_lt_iff_lt_mul positive).2 fine)) ?_
    rcases coarse with zero | bits
    · rw [zero]
      exact Nat.zero_le _
    · exact le_gridExponent_of_le ((Nat.le_div_iff_mul_le positive).2 bits)
  unfold rounded quotientSteps
  rw [grid, roundHalfEven_eq_of_isNearest (Nat.mul_pos positive (Nat.two_pow_pos e)) near]

/-- A quotient not farther below the first number of a grid than half a step of
the finer grid is rounded to that number. -/
theorem rounded_eq_of_first {num den e : Nat} (positive : 0 < den) (coarse : 0 < e)
    (above : 4 * (2 ^ 52 * (den * 2 ^ e)) ≤ 4 * num + den * 2 ^ e)
    (below : num < 2 ^ 52 * (den * 2 ^ e)) : rounded num den = 2 ^ 52 * 2 ^ e := by
  obtain ⟨finer, rfl⟩ := Nat.exists_eq_add_one.2 coarse
  have double : den * 2 ^ (finer + 1) = 2 * (den * 2 ^ finer) := by ring
  rw [double] at above below
  have one : 0 < den * 2 ^ finer := Nat.mul_pos positive (Nat.two_pow_pos finer)
  have bits : 2 ^ (52 + finer) * den = 2 ^ 52 * (den * 2 ^ finer) := by ring
  have more : 2 ^ (53 + finer) * den = 2 ^ 53 * (den * 2 ^ finer) := by ring
  have near : IsNearest num (den * 2 ^ finer) (2 ^ 53) := by
    refine ⟨?_, ?_, fun _ => by decide, fun _ => by decide⟩ <;> omega
  rw [rounded_eq_of_isNearest positive (Or.inr (by omega)) (by omega) near]
  ring

/-- A count on its grid is a number of grid steps of at most 53 bits, and of
just as many unless the grid is the finest. -/
theorem exists_significand {n : Nat} (onGrid : 2 ^ gridExponent n ∣ n) (notZero : 0 < n) :
    ∃ s, n = 2 ^ gridExponent n * s ∧ n / 2 ^ gridExponent n = s ∧ 0 < s ∧ s < 2 ^ 53 ∧
      (0 < gridExponent n → 2 ^ 52 ≤ s) := by
  have size := lt_two_pow_gridExponent n
  have coarse := @two_pow_le_of_gridExponent n
  obtain ⟨s, split⟩ := onGrid
  generalize gridExponent n = e at *
  have step := Nat.two_pow_pos e
  refine ⟨s, split, ?_, ?_, ?_, fun deep => ?_⟩
  · rw [split, Nat.mul_div_cancel_left s step]
  · refine Nat.pos_of_ne_zero ?_
    rintro rfl
    simp [split] at notZero
  · rw [split, Nat.pow_add, Nat.mul_comm] at size
    exact Nat.lt_of_mul_lt_mul_right size
  · have least := coarse deep
    rw [split, Nat.pow_add, Nat.mul_comm] at least
    exact Nat.le_of_mul_le_mul_left least step

/-- A quotient in the rounding interval of a count is rounded to that count. -/
theorem rounded_eq_of_between {n num den : Nat} (onGrid : 2 ^ gridExponent n ∣ n)
    (notZero : 0 < n) (positive : 0 < den)
    (above : (roundingInterval n).low * den ≤ 4 * num)
    (below : 4 * num ≤ (roundingInterval n).high * den)
    (ends : (roundingInterval n).low * den = 4 * num ∨
      4 * num = (roundingInterval n).high * den → (roundingInterval n).closed = true) :
    rounded num den = n := by
  obtain ⟨s, split, significand, some, bits, coarse⟩ := exists_significand onGrid notZero
  simp only [roundingInterval, decide_eq_true_eq] at above below ends
  rw [significand] at above ends
  generalize gridExponent n = e at *
  have one : 0 < den * 2 ^ e := Nat.mul_pos positive (Nat.two_pow_pos e)
  have whole : 4 * n * den = 4 * (s * (den * 2 ^ e)) := by rw [split]; ring
  have same : 2 ^ e * den = den * 2 ^ e := Nat.mul_comm _ _
  have twice : 2 * 2 ^ e * den = 2 * (den * 2 ^ e) := by ring
  have fine : num < 2 ^ (53 + e) * den := by
    have many : (s + 1) * (den * 2 ^ e) ≤ 2 ^ 53 * (den * 2 ^ e) := Nat.mul_le_mul_right _ bits
    rw [Nat.add_mul, whole, twice] at below
    rw [Nat.pow_add, Nat.mul_assoc, same]
    rw [Nat.add_mul, Nat.one_mul] at many
    omega
  rw [Nat.add_mul, whole, twice] at below ends
  rw [Nat.sub_mul, whole] at above ends
  rw [split, Nat.mul_comm]
  have middle : 2 ^ (52 + e) * den = 2 ^ 52 * (den * 2 ^ e) := by ring
  have half : (2 * s + 1) * (den * 2 ^ e) = 2 * (s * (den * 2 ^ e)) + den * 2 ^ e := by ring
  have steps : 2 * s * (den * 2 ^ e) = 2 * (s * (den * 2 ^ e)) := Nat.mul_assoc _ _ _
  by_cases first : s = 2 ^ 52 ∧ 0 < e
  · rw [if_pos first, same] at above ends
    obtain ⟨rfl, deep⟩ := first
    by_cases lower : num < 2 ^ 52 * (den * 2 ^ e)
    · exact rounded_eq_of_first positive deep (by omega) lower
    · refine rounded_eq_of_isNearest positive (Or.inr (by omega)) fine ⟨?_, ?_, ?_, ?_⟩
      · omega
      · omega
      · exact fun _ => by decide
      · exact fun _ => by decide
  · rw [if_neg first, twice] at above ends
    have positiveSteps : 1 * (den * 2 ^ e) ≤ s * (den * 2 ^ e) := Nat.mul_le_mul_right _ some
    refine rounded_eq_of_isNearest positive ?_ fine ⟨?_, ?_, ?_, ?_⟩
    · rcases Nat.eq_zero_or_pos e with zero | deep
      · exact Or.inl zero
      · have large : 2 ^ 52 + 1 ≤ s := by
          have least := coarse deep
          omega
        have more : (2 ^ 52 + 1) * (den * 2 ^ e) ≤ s * (den * 2 ^ e) :=
          Nat.mul_le_mul_right _ large
        exact Or.inr (by omega)
    · omega
    · omega
    · exact fun tie => ends (Or.inr (by omega))
    · exact fun tie => ends (Or.inl (by omega))

/-- Decimal steps inside the rounding interval of a count are rounded to that count. -/
theorem rounded_eq_of_holds {n count : Nat} {exponent : Int} (onGrid : 2 ^ gridExponent n ∣ n)
    (notZero : 0 < n) (inside : (roundingInterval n).holds count exponent = true) :
    rounded (count * 10 ^ exponent.toNat * unit) (10 ^ (-exponent).toNat) = n := by
  have positive : 0 < 10 ^ (-exponent).toNat := Nat.pow_pos (by decide)
  have point : count * 4 * unit * 10 ^ exponent.toNat =
      4 * (count * 10 ^ exponent.toNat * unit) := by ring
  unfold RoundingInterval.holds at inside
  rw [point] at inside
  by_cases closed : (roundingInterval n).closed = true
  · rw [if_pos closed, Bool.and_eq_true, decide_eq_true_eq, decide_eq_true_eq] at inside
    exact rounded_eq_of_between onGrid notZero positive inside.1 inside.2 fun _ => closed
  · rw [if_neg closed, Bool.and_eq_true, decide_eq_true_eq, decide_eq_true_eq] at inside
    refine rounded_eq_of_between onGrid notZero positive inside.1.le inside.2.le ?_
    rintro (low | high)
    · exact absurd low inside.1.ne
    · exact absurd high inside.2.ne

/-- The interval reaches farther to each side than half a step of a decimal
grid on which the count has seventeen digits. -/
theorem lt_roundingInterval {n : Nat} (onGrid : 2 ^ gridExponent n ∣ n) (notZero : 0 < n) :
    10 ^ 16 * (roundingInterval n).low + 2 * n < 10 ^ 16 * (4 * n) ∧
      10 ^ 16 * (4 * n) + 2 * n < 10 ^ 16 * (roundingInterval n).high := by
  have size := lt_two_pow_gridExponent n
  rw [Nat.pow_add] at size
  obtain ⟨s, split, significand, some, _⟩ := exists_significand onGrid notZero
  simp only [roundingInterval]
  rw [significand]
  generalize gridExponent n = e at *
  have least : 2 ^ e * 1 ≤ 2 ^ e * s := Nat.mul_le_mul_left _ some
  split
  · rename_i first
    rw [first.1] at split
    omega
  · omega

/-- On a decimal grid on which a count has seventeen digits, a point half a step
away at most lies inside the rounding interval. -/
theorem holds_of_near {n count : Nat} {exponent : Int} (onGrid : 2 ^ gridExponent n ∣ n)
    (notZero : 0 < n)
    (fine : 10 ^ 16 * (unit * 10 ^ exponent.toNat) ≤ n * 10 ^ (-exponent).toNat)
    (above : 2 * (n * 10 ^ (-exponent).toNat) ≤
      (2 * count + 1) * (unit * 10 ^ exponent.toNat))
    (below : 2 * count * (unit * 10 ^ exponent.toNat) ≤
      2 * (n * 10 ^ (-exponent).toNat) + unit * 10 ^ exponent.toNat) :
    (roundingInterval n).holds count exponent = true := by
  obtain ⟨low, high⟩ := lt_roundingInterval onGrid notZero
  have positive : 0 < 10 ^ (-exponent).toNat := Nat.pow_pos (by decide)
  have scaledLow := Nat.mul_lt_mul_of_pos_right low positive
  have scaledHigh := Nat.mul_lt_mul_of_pos_right high positive
  have point : count * 4 * unit * 10 ^ exponent.toNat =
      2 * (2 * count * (unit * 10 ^ exponent.toNat)) := by ring
  unfold RoundingInterval.holds
  rw [point]
  generalize (roundingInterval n).low = l at *
  generalize (roundingInterval n).high = h at *
  generalize unit * 10 ^ exponent.toNat = step at *
  generalize 10 ^ (-exponent).toNat = scale at *
  have inside : l * scale < 2 * (2 * count * step) ∧ 2 * (2 * count * step) < h * scale := by
    constructor <;> nlinarith
  dsimp only
  split
  · rw [Bool.and_eq_true, decide_eq_true_eq, decide_eq_true_eq]
    exact ⟨inside.1.le, inside.2.le⟩
  · rw [Bool.and_eq_true, decide_eq_true_eq, decide_eq_true_eq]
    exact inside

/-- Of the two neighbours of a count on such a grid, one lies inside the
rounding interval. -/
theorem holds_neighbour {n : Nat} {exponent : Int} (onGrid : 2 ^ gridExponent n ∣ n)
    (notZero : 0 < n)
    (fine : 10 ^ 16 * (unit * 10 ^ exponent.toNat) ≤ n * 10 ^ (-exponent).toNat) :
    (roundingInterval n).holds (decimalFloor n exponent).1 exponent = true ∨
      (roundingInterval n).holds ((decimalFloor n exponent).1 + 1) exponent = true := by
  have positive : 0 < unit * 10 ^ exponent.toNat :=
    Nat.mul_pos (Nat.two_pow_pos _) (Nat.pow_pos (by decide))
  have near := fun count => @holds_of_near n count exponent onGrid notZero fine
  have split := Nat.div_add_mod (n * 10 ^ (-exponent).toNat) (unit * 10 ^ exponent.toNat)
  have rest := Nat.mod_lt (n * 10 ^ (-exponent).toNat) positive
  simp only [decimalFloor]
  generalize n * 10 ^ (-exponent).toNat / (unit * 10 ^ exponent.toNat) = low at *
  generalize n * 10 ^ (-exponent).toNat % (unit * 10 ^ exponent.toNat) = r at *
  generalize unit * 10 ^ exponent.toNat = step at *
  rw [← split] at near
  by_cases lower : 2 * r ≤ step
  · exact Or.inl (near low (by nlinarith) (by nlinarith))
  · exact Or.inr (near (low + 1) (by nlinarith) (by nlinarith))

/-- What a decimal grid offers for a count lies inside its rounding interval. -/
theorem holds_of_gridNumeral {tieUp : Bool} {n count : Nat} {exponent : Int}
    (h : gridNumeral tieUp n exponent = some count) :
    (roundingInterval n).holds count exponent = true := by
  unfold gridNumeral at h
  dsimp only at h
  split at h
  · rename_i low high
    split at h
    · exact Option.some.inj h ▸ low
    · exact Option.some.inj h ▸ high
    · rw [← Option.some.inj h]
      split
      · exact high
      · exact low
  · rename_i low high
    exact Option.some.inj h ▸ low
  · rename_i low high
    exact Option.some.inj h ▸ high
  · cases h

/-- A grid with a neighbour inside the rounding interval offers something. -/
theorem gridNumeral_ne_none {tieUp : Bool} {n : Nat} {exponent : Int}
    (h : (roundingInterval n).holds (decimalFloor n exponent).1 exponent = true ∨
      (roundingInterval n).holds ((decimalFloor n exponent).1 + 1) exponent = true) :
    gridNumeral tieUp n exponent ≠ none := by
  unfold gridNumeral
  dsimp only
  split
  · split <;> exact Option.some_ne_none _
  · exact Option.some_ne_none _
  · exact Option.some_ne_none _
  · rename_i low high
    rw [low, high] at h
    simp at h

/-- The count of digits bounds a number from both sides. -/
theorem digitCount_bounds (n : Nat) :
    n < 10 ^ digitCount n ∧ (0 < n → 10 ^ (digitCount n - 1) ≤ n) := by
  induction n using Nat.strongRecOn with
  | ind n ih =>
    rw [digitCount]
    split
    · rename_i small
      exact ⟨by simpa using small, fun positive => positive⟩
    · rename_i large
      obtain ⟨upper, lower⟩ := ih (n / 10) (by omega)
      have least := lower (by omega)
      have some : 0 < digitCount (n / 10) := by
        rw [digitCount]
        split <;> omega
      obtain ⟨k, count⟩ := Nat.exists_eq_add_one.2 some
      rw [count] at upper least ⊢
      simp only [Nat.add_sub_cancel, Nat.pow_succ] at upper least ⊢
      omega

/-- A count is not below ten to the power one less than its leading place. -/
theorem leadingPlace_le {n : Nat} (notZero : 0 < n) :
    10 ^ (leadingPlace n - 1).toNat * unit ≤ n * 10 ^ (1 - leadingPlace n).toNat := by
  have positive : 0 < unit := Nat.two_pow_pos _
  unfold leadingPlace
  split
  · rename_i whole
    have some : 0 < n / unit := Nat.div_pos whole positive
    have least := (digitCount_bounds (n / unit)).2 some
    have counted : 0 < digitCount (n / unit) := by
      rw [digitCount]
      split <;> omega
    have up : ((digitCount (n / unit) : Int) - 1).toNat = digitCount (n / unit) - 1 := by omega
    have down : (1 - (digitCount (n / unit) : Int)).toNat = 0 := by omega
    rw [up, down, Nat.pow_zero, Nat.mul_one]
    exact (Nat.le_div_iff_mul_le positive).1 least
  · rename_i fraction
    have bound := (digitCount_bounds ((unit - 1) / n)).1
    generalize digitCount ((unit - 1) / n) = k at bound ⊢
    have up : (1 - (k : Int) - 1).toNat = 0 := by omega
    have down : (1 - (1 - (k : Int))).toNat = k := by omega
    rw [up, down, Nat.pow_zero, Nat.one_mul, Nat.mul_comm]
    have below : unit - 1 < 10 ^ k * n := (Nat.div_lt_iff_lt_mul notZero).1 bound
    omega

/-- The shortest numeral of a count lies inside its rounding interval. -/
theorem shortestDecimal_holds {tieUp : Bool} {n : Nat} (onGrid : 2 ^ gridExponent n ∣ n)
    (notZero : 0 < n) :
    (roundingInterval n).holds (shortestDecimal tieUp n).1 (shortestDecimal tieUp n).2 = true := by
  unfold shortestDecimal
  dsimp only
  generalize grids : (List.range maximalDigits).map
    (fun k => leadingPlace n - ((k + 1 : Nat) : Int)) = exponents
  generalize search : exponents.findSome? (fun exponent =>
    (gridNumeral tieUp n exponent).map (·, exponent)) = found
  cases found with
  | none =>
    have last : leadingPlace n - 17 ∈ exponents := by
      rw [← grids]
      exact List.mem_map.2 ⟨16, by decide, rfl⟩
    have failed := List.findSome?_eq_none_iff.1 search _ last
    have place := leadingPlace_le notZero
    generalize leadingPlace n = p at *
    have fine : 10 ^ 16 * (unit * 10 ^ (p - 17).toNat) ≤ n * 10 ^ (-(p - 17)).toNat := by
      have exponents : 16 + (p - 17).toNat + (1 - p).toNat = (p - 1).toNat + (-(p - 17)).toNat := by
        omega
      refine Nat.le_of_mul_le_mul_right ?_ (Nat.pow_pos (by decide) : 0 < 10 ^ (1 - p).toNat)
      calc 10 ^ 16 * (unit * 10 ^ (p - 17).toNat) * 10 ^ (1 - p).toNat
          = 10 ^ (16 + (p - 17).toNat + (1 - p).toNat) * unit := by ring
        _ = 10 ^ (p - 1).toNat * unit * 10 ^ (-(p - 17)).toNat := by rw [exponents]; ring
        _ ≤ n * 10 ^ (1 - p).toNat * 10 ^ (-(p - 17)).toNat := Nat.mul_le_mul_right _ place
        _ = n * 10 ^ (-(p - 17)).toNat * 10 ^ (1 - p).toNat := by ring
    exact absurd (Option.map_eq_none_iff.1 failed)
      (gridNumeral_ne_none (holds_neighbour onGrid notZero fine))
  | some numeral =>
    obtain ⟨exponent, _, hit⟩ := List.exists_of_findSome?_eq_some search
    obtain ⟨count, offered, rfl⟩ := Option.map_eq_some_iff.1 hit
    exact holds_of_gridNumeral offered

end RunReport.Binary64
