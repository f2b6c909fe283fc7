/-!
# Binary64 numbers as counts of quanta

Every finite binary64 number is a whole multiple of the least positive one,
the quantum `2^-1074`. A finite number is kept as its sign and that count, so
sums, products and comparisons are exact arithmetic of natural numbers
followed by one rounding. The count of a number always lies on the grid of
53-bit significands, and the type carries the proof.
-/

namespace RunReport

-- A power of natural numbers is the core one, also where algebra brings its own.
attribute [instance (high), default_instance (high)] instPowNat

/-- The whole number nearest to `num / den`; a half goes to the even neighbour. -/
def roundHalfEven (num den : Nat) : Nat :=
  let low := num / den
  let twice := 2 * (num % den)
  if twice < den then low
  else if den < twice then low + 1
  else if low % 2 = 0 then low else low + 1

/-- Rounding never goes below the truncated quotient nor more than one above it. -/
theorem roundHalfEven_bounds (num den : Nat) :
    num / den ≤ roundHalfEven num den ∧ roundHalfEven num den ≤ num / den + 1 := by
  unfold roundHalfEven
  dsimp only
  split
  · omega
  · split
    · omega
    · split <;> omega

namespace Binary64

/-- The quantum is two to minus this exponent. -/
def unitExponent : Nat := 1074

/-- Number of quanta in one unit. -/
def unit : Nat := 2 ^ unitExponent

/-- Binary digits in the count of the largest finite number. -/
def limitExponent : Nat := 2098

/-- The least power of two, in quanta, that is too large to be finite. -/
def limit : Nat := 2 ^ limitExponent

/-- The limit is not zero. -/
theorem limit_pos : 0 < limit := Nat.two_pow_pos _

/-- Exponent of the grid on which the 53-bit numbers of the size of `n` lie. -/
def gridExponent (n : Nat) : Nat := n.log2 - 52

/-- A count of quanta that a finite number may have: below the limit and a
53-bit significand times a power of two. -/
def Representable (n : Nat) : Prop := n < limit ∧ 2 ^ gridExponent n ∣ n

instance : DecidablePred Representable := fun n =>
  inferInstanceAs (Decidable (n < limit ∧ 2 ^ gridExponent n ∣ n))

/-- A significand of at most `2^53` grid steps lies on the grid of its own size. -/
theorem grid_dvd_of_significand {m : Nat} (e : Nat) (h : m ≤ 2 ^ 53) :
    2 ^ gridExponent (m * 2 ^ e) ∣ m * 2 ^ e := by
  by_cases hm : m = 2 ^ 53
  · subst hm
    rw [← Nat.pow_add]
    apply Nat.pow_dvd_pow
    simp only [gridExponent, Nat.log2_two_pow]
    omega
  · by_cases hz : m * 2 ^ e = 0
    · rw [hz]
      exact Nat.dvd_zero _
    · have hlt : m * 2 ^ e < 2 ^ (53 + e) := by
        rw [Nat.pow_add]
        exact Nat.mul_lt_mul_of_pos_right (by omega) (Nat.two_pow_pos e)
      have hlog : (m * 2 ^ e).log2 < 53 + e := (Nat.log2_lt hz).2 hlt
      have hg : gridExponent (m * 2 ^ e) ≤ e := by
        unfold gridExponent
        omega
      exact Nat.dvd_trans (Nat.pow_dvd_pow 2 hg) (Nat.dvd_mul_left _ _)

/-- A quotient read on the grid of its own size has at most 53 bits. -/
theorem grid_quotient_lt (q : Nat) : q / 2 ^ gridExponent q < 2 ^ 53 := by
  rw [Nat.div_lt_iff_lt_mul (Nat.two_pow_pos _), ← Nat.pow_add]
  by_cases hq : q = 0
  · rw [hq]
    exact Nat.two_pow_pos _
  · exact (Nat.log2_lt hq).1 (by unfold gridExponent; omega)

/-- Grid steps in the rounding of `num / den` quanta. -/
def quotientSteps (num den : Nat) : Nat :=
  roundHalfEven num (den * 2 ^ gridExponent (num / den))

/-- A rounded quotient has at most 53 bits, or is the next power of two. -/
theorem quotientSteps_le (num den : Nat) : quotientSteps num den ≤ 2 ^ 53 := by
  have h := (roundHalfEven_bounds num (den * 2 ^ gridExponent (num / den))).2
  rw [← Nat.div_div_eq_div_mul] at h
  have hq := grid_quotient_lt (num / den)
  unfold quotientSteps
  omega

/-- Grid steps in the rounding of the square root of `n`, the root itself
being compared through exact squares. -/
def rootSteps (n : Nat) : Nat :=
  let root := n.sqrt
  let step := 2 ^ gridExponent root
  let low := root / step
  let middle := ((2 * low + 1) * step) ^ 2
  if 4 * n < middle then low
  else if middle < 4 * n then low + 1
  else if low % 2 = 0 then low else low + 1

/-- A rounded root has at most 53 bits, or is the next power of two. -/
theorem rootSteps_le (n : Nat) : rootSteps n ≤ 2 ^ 53 := by
  have hq := grid_quotient_lt n.sqrt
  unfold rootSteps
  dsimp only
  split
  · omega
  · split
    · omega
    · split <;> omega

end Binary64

/-- A binary64 number. A finite one is a sign and a representable count of
quanta, so that the two zeros are told apart; all undefined results are one. -/
inductive Binary64 where
  /-- A finite number: sign, size in quanta, and the size's place on the grid. -/
  | finite (negative : Bool) (quanta : Nat) (onGrid : Binary64.Representable quanta)
  /-- The infinity of the given sign. -/
  | infinite (negative : Bool)
  /-- The undefined number. -/
  | nan
  deriving DecidableEq

namespace Binary64

/-- The number of `steps` grid steps of `2^e` quanta; infinite from the limit on. -/
def ofSteps (negative : Bool) (steps e : Nat) (h : steps ≤ 2 ^ 53) : Binary64 :=
  if small : steps * 2 ^ e < limit then
    .finite negative (steps * 2 ^ e) ⟨small, grid_dvd_of_significand e h⟩
  else .infinite negative

/-- The number nearest to `num / den` quanta with the given sign. -/
def ofQuotient (negative : Bool) (num den : Nat) : Binary64 :=
  ofSteps negative (quotientSteps num den) (gridExponent (num / den)) (quotientSteps_le num den)

/-- The number nearest to the square root of `n`, counted in quanta. -/
def ofRoot (n : Nat) : Binary64 :=
  ofSteps false (rootSteps n) (gridExponent n.sqrt) (rootSteps_le n)

/-- The zero of the given sign. -/
def zero (negative : Bool) : Binary64 := .finite negative 0 ⟨limit_pos, Nat.dvd_zero _⟩

/-- The number nearest to a natural number. -/
def ofNat (n : Nat) : Binary64 := ofQuotient false (n * unit) 1

/-- The number nearest to an integer. -/
def ofInt (i : Int) : Binary64 := ofQuotient (i < 0) (i.natAbs * unit) 1

/-- Whether the sign is negative; the undefined number has none. -/
def isNegative : Binary64 → Bool
  | .finite negative _ _ => negative
  | .infinite negative => negative
  | .nan => false

/-- Whether the number is neither infinite nor undefined. -/
def isFinite : Binary64 → Bool
  | .finite _ _ _ => true
  | _ => false

end Binary64

end RunReport
