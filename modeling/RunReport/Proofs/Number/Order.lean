import RunReport.Proofs.Number.Neutral

/-!
# Operations that keep the order

A rounded quotient lies on the line of integers at its count of quanta, cut off at the
ends, and rounding keeps the order of quotients. So sums keep the order of both of their
terms, and products with a weight that is not negative keep that of the other factor,
wherever they are defined. The greater of two numbers keeps the order as well.
-/

namespace RunReport.Binary64

/-- The place of a rounded quotient: its count of quanta, or an end of the line. -/
def landing (num : ℤ) (den : ℕ) : ℤ := signed (num < 0) (Min.min (rounded num.natAbs den) limit)

/-- Nothing lies in the middle of the line. -/
theorem landing_zero {den : ℕ} (positive : 0 < den) : landing 0 den = 0 := by
  have nothing := rounded_zero positive
  simp [landing, nothing, signed]

/-- Rounding keeps the order of quotients of both signs. -/
theorem landing_mono {den : ℕ} (positive : 0 < den) {a b : ℤ} (h : a ≤ b) :
    landing a den ≤ landing b den := by
  have mono : ∀ {i j : ℕ}, i ≤ j → Min.min (rounded i den) limit ≤ Min.min (rounded j den) limit :=
    fun le => min_le_min_right limit
      (rounded_mono positive positive (Nat.mul_le_mul_right den le))
  unfold landing signed
  by_cases below : a < 0
  · by_cases below' : b < 0
    · have sizes := mono (show b.natAbs ≤ a.natAbs by omega)
      simp only [below, below', decide_true, if_true]
      omega
    · simp only [below, below', decide_true, decide_false, if_true, Bool.false_eq_true, if_false]
      omega
  · have sizes := mono (show a.natAbs ≤ b.natAbs by omega)
    have above : ¬ b < 0 := by omega
    simp only [below, above, decide_false, Bool.false_eq_true, if_false]
    omega

theorem signed_false (n : ℕ) : signed false n = n := rfl

theorem signed_true (n : ℕ) : signed true n = -n := rfl

/-- An integer is its size with its sign. -/
theorem signed_natAbs (k : ℤ) : signed (k < 0) k.natAbs = k := by
  unfold signed
  split
  · rename_i negative
    have below := of_decide_eq_true negative
    omega
  · rename_i other
    have above : ¬ k < 0 := fun below => other (decide_eq_true below)
    omega

/-- A quotient that is rounded lies there. -/
theorem place_ofQuotient (negative : Bool) (num : ℕ) {den : ℕ} (positive : 0 < den) :
    (ofQuotient negative num den).place = some (landing (signed negative num) den) := by
  have place : (ofQuotient negative num den).place =
      some (signed negative (Min.min (rounded num den) limit)) := by
    rcases Nat.lt_or_ge (rounded num den) limit with small | large
    · rw [ofQuotient_eq_finite ⟨small, grid_dvd_rounded num den⟩ rfl, Nat.min_eq_left small.le]
      rfl
    · rw [ofQuotient_eq_infinite large, Nat.min_eq_right large]
      rfl
  rw [place]
  rcases Nat.eq_zero_or_pos num with rfl | some
  · rw [signed_zero, landing_zero positive, rounded_zero positive, Nat.zero_min, signed_zero]
  · have sign : decide (signed negative num < 0) = negative := by
      cases negative with
      | false => exact decide_eq_false (not_lt.2 (Int.natCast_nonneg num))
      | true => exact decide_eq_true (neg_lt_zero.2 (Int.natCast_pos.2 some))
    rw [landing, natAbs_signed, sign]

/-- Every place lies between the ends of the line. -/
theorem place_mem {x : Binary64} {i : ℤ} (h : x.place = some i) :
    -(limit : ℤ) ≤ i ∧ i ≤ limit := by
  cases x with
  | nan => cases h
  | infinite negative =>
    obtain rfl := Option.some.inj h
    cases negative <;> simp only [signed, if_true, Bool.false_eq_true, if_false] <;> omega
  | finite negative n onGrid =>
    have inside := (isFinite_iff_of_place h).1 rfl
    omega

/-- Numbers that are compared have places. -/
theorem exists_place_of_le {x y : Binary64} (h : x.le y = true) :
    ∃ i j, x.place = some i ∧ y.place = some j ∧ i ≤ j := by
  cases hx : x.place with
  | none => simp [le, hx] at h
  | some i =>
    cases hy : y.place with
    | none => simp [le, hx, hy] at h
    | some j => exact ⟨i, j, rfl, rfl, (le_iff_of_place hx hy).1 h⟩

/-- Where a sum of numbers at two places lies: at an end of the line if one of them
does, and else where the sum of the places is rounded to. -/
inductive SumAt (i j : ℤ) : ℤ → Prop
  /-- One term is infinite and the other one is not at the lower end. -/
  | top (infinite : i = limit ∨ j = limit) (left : -limit < i) (right : -limit < j) :
    SumAt i j limit
  /-- One term is negatively infinite and the other one is not at the upper end. -/
  | bottom (infinite : i = -limit ∨ j = -limit) (left : i < limit) (right : j < limit) :
    SumAt i j (-limit)
  /-- Both terms are finite. -/
  | inside (left : -limit < i ∧ i < limit) (right : -limit < j ∧ j < limit) :
    SumAt i j (landing (i + j) 1)

/-- An infinite term decides on a sum unless it meets the other infinity. -/
theorem sumAt_infinite (s : Bool) {j : ℤ} (mem : -(limit : ℤ) ≤ j ∧ j ≤ limit)
    (other : j ≠ signed (!s) limit) :
    SumAt (signed s limit) j (signed s limit) ∧ SumAt j (signed s limit) (signed s limit) := by
  have positive := limit_pos
  cases s with
  | false =>
    have above : -(limit : ℤ) < j := lt_of_le_of_ne mem.1 (Ne.symm other)
    have there : -(limit : ℤ) < signed false limit := by
      rw [signed_false]
      omega
    exact ⟨.top (.inl rfl) there above, .top (.inr rfl) above there⟩
  | true =>
    have below : j < limit := lt_of_le_of_ne mem.2 other
    have there : signed true limit < limit := by
      rw [signed_true]
      omega
    exact ⟨.bottom (.inl rfl) there below, .bottom (.inr rfl) below there⟩

/-- A finite number does not lie at an end of the line. -/
theorem ne_end_of_isFinite {x : Binary64} {i : ℤ} (h : x.place = some i)
    (finite : x.isFinite = true) (s : Bool) : i ≠ signed s limit := by
  have inside := (isFinite_iff_of_place h).1 finite
  cases s with
  | false => exact inside.2.ne
  | true => exact inside.1.ne'

/-- A sum that is defined lies where its terms say. -/
theorem sumAt_of_place {x y : Binary64} {i j : ℤ} (hx : x.place = some i) (hy : y.place = some j)
    (defined : x.add y ≠ .nan) : ∃ k, (x.add y).place = some k ∧ SumAt i j k := by
  cases x with
  | nan => cases hx
  | infinite s =>
    obtain rfl := Option.some.inj hx
    cases y with
    | nan => cases hy
    | finite t n onGrid =>
      exact ⟨_, rfl, (sumAt_infinite s (place_mem hy) (ne_end_of_isFinite hy rfl _)).1⟩
    | infinite t =>
      obtain rfl := Option.some.inj hy
      by_cases same : s = t
      · subst same
        refine ⟨signed s limit, by simp only [add, if_true]; rfl,
          (sumAt_infinite s (place_mem hy) ?_).1⟩
        have positive := limit_pos
        cases s <;> simp only [Bool.not_true, Bool.not_false, signed_true, signed_false] <;> omega
      · exact absurd (by simp only [add, if_neg same]) defined
  | finite s m onGrid =>
    cases y with
    | nan => cases hy
    | infinite t =>
      obtain rfl := Option.some.inj hy
      exact ⟨_, rfl, (sumAt_infinite t (place_mem hx) (ne_end_of_isFinite hx rfl _)).2⟩
    | finite t n onGrid' =>
      have insideX := (isFinite_iff_of_place hx).1 rfl
      have insideY := (isFinite_iff_of_place hy).1 rfl
      obtain rfl := Option.some.inj hx
      obtain rfl := Option.some.inj hy
      refine ⟨_, ?_, .inside insideX insideY⟩
      simp only [add]
      split
      · rename_i none
        rw [none, landing_zero Nat.one_pos]
        cases s <;> cases t <;> rfl
      · rw [place_ofQuotient _ _ Nat.one_pos, signed_natAbs]

/-- Sums keep the order of their terms. -/
theorem add_mono {x x' y y' : Binary64} (hx : x.le x' = true) (hy : y.le y' = true)
    (defined : x.add y ≠ .nan) (defined' : x'.add y' ≠ .nan) :
    (x.add y).le (x'.add y') = true := by
  obtain ⟨i, i', placeX, placeX', leX⟩ := exists_place_of_le hx
  obtain ⟨j, j', placeY, placeY', leY⟩ := exists_place_of_le hy
  obtain ⟨k, place, there⟩ := sumAt_of_place placeX placeY defined
  obtain ⟨k', place', there'⟩ := sumAt_of_place placeX' placeY' defined'
  rw [le_iff_of_place place place']
  have insideX' := place_mem placeX'
  have insideY' := place_mem placeY'
  have inside := place_mem place
  have inside' := place_mem place'
  cases there with
  | top infinite left right => cases there' <;> omega
  | bottom => omega
  | inside left right =>
    cases there' with
    | top => omega
    | bottom => omega
    | inside => exact landing_mono Nat.one_pos (by omega)

/-- Where a number lies when it is multiplied with a finite weight that is not negative. -/
theorem exists_place_weigh {m : ℕ} (onGrid : Representable m) {x : Binary64} {i : ℤ}
    (h : x.place = some i) (defined : (Binary64.finite false m onGrid).mul x ≠ .nan) :
    ∃ k, ((Binary64.finite false m onGrid).mul x).place = some k ∧
      (k = i ∧ (i = limit ∨ i = -limit) ∨
        -limit < i ∧ i < limit ∧ k = landing (m * i) unit) := by
  cases x with
  | nan => cases h
  | infinite t =>
    obtain rfl := Option.some.inj h
    by_cases none : m = 0
    · exact absurd (by simp only [mul, if_pos none]) defined
    · refine ⟨signed t limit, ?_, .inl ⟨rfl, ?_⟩⟩
      · simp only [mul, if_neg none]
        cases t <;> rfl
      · cases t with
        | false => exact .inl rfl
        | true => exact .inr rfl
  | finite t n onGrid' =>
    have inside := (isFinite_iff_of_place h).1 rfl
    obtain rfl := Option.some.inj h
    refine ⟨_, ?_, .inr ⟨inside.1, inside.2, rfl⟩⟩
    have product : signed (false != t) (m * n) = m * signed t n := by
      cases t <;> simp [signed]
    have quantum : 0 < unit := Nat.two_pow_pos _
    rw [mul, place_ofQuotient _ _ quantum, product]

/-- A finite weight that is not negative keeps the order. -/
theorem weigh_mono {m : ℕ} (onGrid : Representable m) {x x' : Binary64} (h : x.le x' = true)
    (defined : (Binary64.finite false m onGrid).mul x ≠ .nan)
    (defined' : (Binary64.finite false m onGrid).mul x' ≠ .nan) :
    ((Binary64.finite false m onGrid).mul x).le ((Binary64.finite false m onGrid).mul x') =
      true := by
  obtain ⟨i, i', place, place', le⟩ := exists_place_of_le h
  obtain ⟨k, placed, there⟩ := exists_place_weigh onGrid place defined
  obtain ⟨k', placed', there'⟩ := exists_place_weigh onGrid place' defined'
  rw [le_iff_of_place placed placed']
  have inside := place_mem placed
  have inside' := place_mem placed'
  rcases there with ⟨rfl, ends⟩ | ⟨above, below, rfl⟩ <;>
    rcases there' with ⟨rfl, ends'⟩ | ⟨above', below', rfl⟩
  · exact le
  · omega
  · omega
  · exact landing_mono (Nat.two_pow_pos _) (mul_le_mul_of_nonneg_left le (Int.natCast_nonneg m))

/-- The greater of two numbers lies at the greater place. -/
theorem place_max {x y : Binary64} {i j : ℤ} (hx : x.place = some i) (hy : y.place = some j) :
    (x.max y).place = some (Max.max i j) := by
  simp only [max, hx, hy]
  split
  · rename_i le
    rw [hy, max_eq_right le]
  · rename_i less
    rw [hx, max_eq_left (not_le.1 less).le]

/-- The greater of two numbers keeps the order of both. -/
theorem max_mono {x x' y y' : Binary64} (hx : x.le x' = true) (hy : y.le y' = true) :
    (x.max y).le (x'.max y') = true := by
  obtain ⟨i, i', placeX, placeX', leX⟩ := exists_place_of_le hx
  obtain ⟨j, j', placeY, placeY', leY⟩ := exists_place_of_le hy
  rw [le_iff_of_place (place_max placeX placeY) (place_max placeX' placeY')]
  exact max_le_max leX leY

end RunReport.Binary64
