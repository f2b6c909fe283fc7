import RunReport.Proofs.Number.Bounds

/-!
# Zero, one and equal places

Numbers at one place of the line are one number or two zeros, so the places of sums
and differences follow from places, and a square does. Adding a zero and multiplying
by one keep the place of every number. A product with zero is a zero only if the
other factor is finite: with an infinity it is undefined.
-/

namespace RunReport.Binary64

variable {x y z : Binary64}

/-- The order of a sum does not matter. -/
theorem add_swap (x y : Binary64) : x.add y = y.add x := by
  cases x with
  | nan => cases y <;> rfl
  | infinite s =>
    cases y with
    | nan => rfl
    | finite t n _ => rfl
    | infinite t => cases s <;> cases t <;> rfl
  | finite s m _ =>
    cases y with
    | nan => rfl
    | infinite t => rfl
    | finite t n _ => simp only [add, Int.add_comm (signed s m), Bool.and_comm s]

/-- The distance of two numbers is the same from both sides. -/
theorem abs_sub_swap (x y : Binary64) : (x.sub y).abs = (y.sub x).abs := by
  cases x with
  | finite s m _ =>
    cases y with
    | finite t n _ =>
      have opposite : signed s m + signed (!t) n = -(signed t n + signed (!s) m) := by
        cases s <;> cases t <;> simp only [signed, Bool.not_true, Bool.not_false, if_true,
          Bool.false_eq_true, if_false] <;> omega
      simp only [sub, neg, add, opposite, Int.neg_eq_zero, Int.natAbs_neg]
      split
      · rfl
      · unfold ofQuotient ofSteps
        split <;> rfl
    | infinite t => rfl
    | nan => rfl
  | infinite s =>
    cases y with
    | finite t n _ => rfl
    | infinite t => cases s <;> cases t <;> rfl
    | nan => rfl
  | nan => cases y <;> rfl

/-- A count of zero has no sign. -/
@[simp]
theorem signed_zero (negative : Bool) : signed negative 0 = 0 := by cases negative <;> rfl

/-- Equal signed counts are equal counts, and have one sign if they are not zero. -/
theorem eq_of_signed_eq {s t : Bool} {m n : Nat} (h : signed s m = signed t n) :
    m = n ∧ (m = 0 ∨ s = t) := by
  have sizes := congrArg Int.natAbs h
  rw [natAbs_signed, natAbs_signed] at sizes
  refine ⟨sizes, ?_⟩
  subst sizes
  cases s <;> cases t <;> simp [signed] at h ⊢ <;> omega

/-- Numbers at one place are one number or two zeros. -/
theorem eq_or_zeros_of_place_eq (h : x.place = y.place) :
    x = y ∨ ∃ s t, x = zero s ∧ y = zero t := by
  have positive := limit_pos
  cases x with
  | nan =>
    cases y with
    | nan => exact Or.inl rfl
    | finite t n _ => cases h
    | infinite t => cases h
  | infinite s =>
    cases y with
    | nan => cases h
    | finite t n onGrid => exact absurd (eq_of_signed_eq (Option.some.inj h)).1 onGrid.1.ne'
    | infinite t =>
      obtain ⟨_, none | rfl⟩ := eq_of_signed_eq (Option.some.inj h)
      · omega
      · exact Or.inl rfl
  | finite s m onGrid =>
    cases y with
    | nan => cases h
    | infinite t => exact absurd (eq_of_signed_eq (Option.some.inj h)).1 onGrid.1.ne
    | finite t n onGrid' =>
      obtain ⟨rfl, rfl | rfl⟩ := eq_of_signed_eq (Option.some.inj h)
      · exact Or.inr ⟨s, t, rfl, rfl⟩
      · exact Or.inl rfl

/-- A number is numerically equal to a finite one at its place and nowhere else. -/
theorem same_iff_place_eq (h : y.isFinite = true) : x.same y = true ↔ x.place = y.place := by
  obtain ⟨k, place, _⟩ := exists_place_of_isFinite h
  rw [same, place]
  cases x.place with
  | none => simp
  | some j => simp

/-- Adding a zero keeps the place. -/
theorem place_zero_add (negative : Bool) (x : Binary64) :
    ((zero negative).add x).place = x.place := by
  cases x with
  | nan => rfl
  | infinite t => rfl
  | finite t n onGrid =>
    have kept : rounded (signed t n).natAbs 1 = n := by
      rw [natAbs_signed]
      simpa using rounded_mul onGrid.2 Nat.one_pos
    have place : (Binary64.finite t n onGrid).place = some (signed t n) := rfl
    simp only [zero, add, signed_zero, Int.zero_add, place]
    split
    · rename_i none
      rw [none]
      exact congrArg some (signed_zero _)
    · rename_i some
      have sign : decide (signed t n < 0) = t := by
        cases t <;> simp [signed] at some ⊢
        omega
      rw [ofQuotient_eq_finite onGrid kept, sign, place]

/-- The sum depends on the place of what is added, but for the sign of a zero. -/
theorem add_place_congr (z : Binary64) (h : x.place = y.place) :
    (z.add x).place = (z.add y).place := by
  rcases eq_or_zeros_of_place_eq h with rfl | ⟨s, t, rfl, rfl⟩
  · rfl
  · rw [add_swap, place_zero_add, add_swap, place_zero_add]

/-- The difference depends on the place of what is taken away, but for the sign of a zero. -/
theorem sub_place_congr (z : Binary64) (h : x.place = y.place) :
    (z.sub x).place = (z.sub y).place := by
  rcases eq_or_zeros_of_place_eq h with rfl | ⟨s, t, rfl, rfl⟩
  · rfl
  · refine add_place_congr z ?_
    cases s <;> cases t <;> rfl

/-- Numbers at one place have one square. -/
theorem mul_self_congr (h : x.place = y.place) : x.mul x = y.mul y := by
  rcases eq_or_zeros_of_place_eq h with rfl | ⟨s, t, rfl, rfl⟩
  · rfl
  · simp only [zero, mul, bne_self_eq_false]

/-- Numbers at one place are the same when they are kept from below zero. -/
theorem max_zero_congr (h : x.place = y.place) :
    x.max (zero false) = y.max (zero false) := by
  rcases eq_or_zeros_of_place_eq h with rfl | ⟨s, t, rfl, rfl⟩
  · rfl
  · cases s <;> cases t <;> rfl

/-- One times a number is that number. -/
theorem ofNat_one_mul (x : Binary64) : (ofNat 1).mul x = x := by
  have positive : 0 < unit := Nat.two_pow_pos _
  rw [ofNat_one]
  cases x with
  | nan => rfl
  | infinite t => simp only [mul, if_neg positive.ne', Bool.false_bne]
  | finite t n onGrid =>
    simp only [mul, Bool.false_bne]
    refine ofQuotient_eq_finite onGrid ?_
    rw [Nat.mul_comm, rounded_mul onGrid.2 positive]

/-- Nothing of a unit is rounded to nothing. -/
theorem rounded_zero {den : Nat} (positive : 0 < den) : rounded 0 den = 0 := by
  have kept := rounded_mul (n := 0) (Nat.dvd_zero _) positive
  rwa [Nat.zero_mul] at kept

/-- Zero times a finite number is a zero. -/
theorem exists_zero_mul_eq (h : x.isFinite = true) : ∃ s, (zero false).mul x = zero s := by
  cases x with
  | nan => cases h
  | infinite t => cases h
  | finite t n onGrid =>
    refine ⟨false != t, ?_⟩
    simp only [zero, mul, Nat.zero_mul]
    exact ofQuotient_eq_finite _ (rounded_zero (Nat.two_pow_pos _))

/-- Zero times an infinity is undefined. -/
theorem zero_mul_of_not_isFinite (h : x.isFinite = false) : (zero false).mul x = .nan := by
  cases x with
  | nan => rfl
  | infinite t => rfl
  | finite t n onGrid => cases h

/-- Nothing of a number that is not zero is a zero. -/
theorem zero_div_finite {n : Nat} {onGrid : Representable n} (some : n ≠ 0) :
    (zero false).div (.finite false n onGrid) = zero false := by
  simp only [zero, div, if_neg some, Nat.zero_mul, bne_self_eq_false]
  exact ofQuotient_eq_finite _ (rounded_zero (Nat.pos_of_ne_zero some))

/-- A number that is not zero is once in itself. -/
theorem div_self_finite {n : Nat} {onGrid : Representable n} (some : n ≠ 0) :
    div (.finite false n onGrid) (.finite false n onGrid) = ofNat 1 := by
  rw [ofNat_one, div, if_neg some, bne_self_eq_false, Nat.mul_comm]
  exact ofQuotient_eq_finite _ (rounded_mul representable_unit.2 (Nat.pos_of_ne_zero some))

/-- What is not above a number is not below it strictly. -/
theorem lt_eq_false_of_le (h : x.le y = true) : y.lt x = false := by
  unfold le at h
  unfold lt
  cases placeX : x.place with
  | none => simp [placeX] at h
  | some i =>
    cases placeY : y.place with
    | none => rfl
    | some j =>
      simp only [placeX, placeY, decide_eq_true_eq] at h
      exact decide_eq_false (by omega)

/-- Clamping keeps what lies between the bounds. -/
theorem clamp_eq_self {low high : Binary64} (above : low.le x = true) (below : x.le high = true) :
    x.clamp low high = x := by
  simp only [clamp, lt_eq_false_of_le above, lt_eq_false_of_le below, Bool.false_eq_true, if_false]

/-- Clamping keeps the place of a number between the bounds. -/
theorem place_clamp {low high : Binary64} (h : x.place = y.place) (above : low.le y = true)
    (below : y.le high = true) : (x.clamp low high).place = y.place := by
  have above' : low.le x = true := by rwa [le, h]
  have below' : x.le high = true := by rwa [le, h]
  rw [clamp_eq_self above' below', h]

end RunReport.Binary64
