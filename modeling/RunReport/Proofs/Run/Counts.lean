import RunReport.Proofs.Distribution.Overflow
import RunReport.Proofs.Number.FixedPoint
import RunReport.Proofs.Table.Transposition

/-!
# Counts as they are shown

A count is carried and merged as a whole number, but it is shown as a binary64 number.
So the text is the numeral of the number nearest to the count. That is the count itself
exactly if it has at most 53 significant bits, as every count up to `2^53` has, and the
number of machines always is one of these.
-/

namespace RunReport

/-- A nearest whole number does not change with the unit. -/
theorem roundHalfEven_mul_mul {den k : ℕ} (positive : 0 < den) (scale : 0 < k) (num : ℕ) :
    roundHalfEven (num * k) (den * k) = roundHalfEven num den := by
  have positive' := Nat.mul_pos positive scale
  have same : num * k * den = num * (den * k) := by ring
  exact Nat.le_antisymm (roundHalfEven_mono positive' positive same.le)
    (roundHalfEven_mono positive positive' same.ge)

namespace Binary64

/-- The grid of a whole number follows it from the 53rd bit on. -/
theorem gridExponent_mul_two_pow {n : ℕ} (large : 2 ^ 52 ≤ n) (k : ℕ) :
    gridExponent (n * 2 ^ k) = gridExponent n + k := by
  have bottom : 2 ^ (52 + gridExponent n) ≤ n := by
    rcases Nat.eq_zero_or_pos (gridExponent n) with fine | coarse
    · rwa [fine]
    · exact two_pow_le_of_gridExponent coarse
  refine Nat.le_antisymm (gridExponent_le_of_lt ?_) (le_gridExponent_of_le ?_)
  · rw [← Nat.add_assoc, Nat.pow_add]
    exact Nat.mul_lt_mul_of_pos_right (lt_two_pow_gridExponent n) (Nat.two_pow_pos k)
  · rw [← Nat.add_assoc, Nat.pow_add]
    exact Nat.mul_le_mul_right _ bottom

/-- A count on its own grid is left as it is. -/
theorem rounded_of_grid {n : ℕ} (onGrid : 2 ^ gridExponent n ∣ n) : rounded n 1 = n := by
  have whole := rounded_mul onGrid Nat.one_pos
  rwa [Nat.mul_one] at whole

/-- A whole number of units is rounded to a whole number of units. -/
theorem rounded_mul_two_pow (n k : ℕ) : rounded (n * 2 ^ k) 1 = rounded n 1 * 2 ^ k := by
  rcases Nat.lt_or_ge n (2 ^ 52) with small | large
  · have fits : n ≤ 2 ^ 53 := small.le.trans (by decide)
    have own := grid_dvd_of_significand 0 fits
    rw [Nat.pow_zero, Nat.mul_one] at own
    rw [rounded_of_grid (grid_dvd_of_significand k fits), rounded_of_grid own]
  · have power := Nat.two_pow_pos (gridExponent n)
    rw [rounded, rounded, quotientSteps, quotientSteps, Nat.div_one, Nat.div_one, Nat.one_mul,
      Nat.one_mul, gridExponent_mul_two_pow large, Nat.pow_add,
      roundHalfEven_mul_mul power (Nat.two_pow_pos k), Nat.mul_assoc]

/-- A count is left as it is exactly if it has at most 53 significant bits. -/
theorem rounded_eq_iff {n : ℕ} : rounded n 1 = n ↔ ∃ m e, m < 2 ^ 53 ∧ n = m * 2 ^ e := by
  constructor
  · intro same
    have onGrid := grid_dvd_rounded n 1
    rw [same] at onGrid
    exact ⟨n / 2 ^ gridExponent n, gridExponent n, grid_quotient_lt n,
      (Nat.div_mul_cancel onGrid).symm⟩
  · rintro ⟨m, e, bits, rfl⟩
    exact rounded_of_grid (grid_dvd_of_significand e bits.le)

/-- The number of a count, without decimal places: the numeral of what it is rounded to. -/
theorem fixed_ofNat {n k : ℕ} (below : n < 2 ^ k) (room : k + unitExponent < limitExponent) :
    (ofNat n).fixed 0 = Digits.text (rounded n 1) := by
  obtain ⟨onGrid, number⟩ := ofNat_eq below room
  have steps : fixedSteps (rounded (n * unit) 1) 0 = rounded n 1 := by
    rw [fixedSteps, Nat.pow_zero, Nat.mul_one, unit, rounded_mul_two_pow,
      roundHalfEven_mul (Nat.two_pow_pos _)]
  rw [number, fixed, steps]
  simp [withSign, fixedDigits, Digits.text]

/-- The number of a count is a nearest one, and a whole number. -/
theorem ofNat_nearest {n k : ℕ} (below : n < 2 ^ k) (room : k + unitExponent < limitExponent) :
    (ofNat n).IsNearestTo n ∧ (ofNat n).toRat = rounded n 1 := by
  obtain ⟨onGrid, number⟩ := ofNat_eq below room
  have scale := unit_pos
  have finite : (ofQuotient false (n * unit) 1).isFinite = true := by
    rw [← ofNat, number]
    rfl
  have nearest := isNearestTo_ofQuotient Nat.one_pos finite
  have value : (signed false (n * unit) : ℚ) / ((1 : ℕ) * unit) = n := by
    simp only [signed, Bool.false_eq_true, if_false]
    push_cast
    field_simp
  rw [value] at nearest
  refine ⟨nearest, ?_⟩
  have scaled : rounded (n * unit) 1 = rounded n 1 * unit := rounded_mul_two_pow n _
  rw [number, toRat]
  simp only [signed, Bool.false_eq_true, if_false, scaled]
  push_cast
  field_simp

end Binary64

/-- Different counts have different numerals. -/
theorem Digits.text_inj {m n : ℕ} : text m = text n ↔ m = n := by
  refine ⟨fun same => ?_, congrArg text⟩
  have numerals : numeral m = numeral n := String.ofList_injective same
  rw [← value_numeral m, numerals, value_numeral]

/-- A text is what is shown for a count. -/
structure ShowsCount (n : ℕ) (text : String) : Prop where
  /-- No number is nearer to the count than the one that is shown. -/
  nearest : (Binary64.ofNat n).IsNearestTo n
  /-- That number is whole, and the text is its numeral. -/
  numeral : ∃ k : ℕ, (Binary64.ofNat n).toRat = k ∧ text = Digits.text k
  /-- The text is the numeral of the count exactly if that has at most 53 significant bits. -/
  exact_iff : text = Digits.text n ↔ ∃ m e, m < 2 ^ 53 ∧ n = m * 2 ^ e
  /-- So it is for every count up to `2^53`. -/
  exact_of_le : n ≤ 2 ^ 53 → text = Digits.text n

/-- A 64-bit count is shown so. -/
theorem showsCount_fixed {n : ℕ} (below : n < 2 ^ 64) :
    ShowsCount n ((Binary64.ofNat n).fixed 0) := by
  obtain ⟨nearest, value⟩ := Binary64.ofNat_nearest below (by decide)
  have shown := Binary64.fixed_ofNat below (by decide)
  have exact_iff : (Binary64.ofNat n).fixed 0 = Digits.text n ↔
      ∃ m e, m < 2 ^ 53 ∧ n = m * 2 ^ e := by
    rw [shown, Digits.text_inj, Binary64.rounded_eq_iff]
  refine ⟨nearest, ⟨_, value, shown⟩, exact_iff, fun small => exact_iff.2 ?_⟩
  rcases Nat.eq_or_lt_of_le small with rfl | less
  · exact ⟨1, 53, by decide, rfl⟩
  · exact ⟨n, 0, less, (Nat.mul_one n).symm⟩

namespace RunSummary

/-- The counts of a run as a whole, by the names of their fields. -/
def counts (s : RunSummary) : List (String × ℕ) :=
  [("hosts", s.hosts.toNat), ("log_objects", s.logObjects.toNat), ("slots", s.slots.toNat),
    ("blocks_forged", s.blocksForged.toNat), ("tx_submitted", s.submitted.toNat)]

variable {s : RunSummary} {name : String} {n : ℕ}

/-- A count has at most 64 bits. -/
theorem lt_of_mem_counts (given : (name, n) ∈ s.counts) : n < 2 ^ 64 := by
  have hosts := s.hosts.toNat_lt
  simp only [counts, List.mem_cons, Prod.mk.injEq, List.not_mem_nil, or_false] at given
  rcases given with ⟨_, rfl⟩ | ⟨_, rfl⟩ | ⟨_, rfl⟩ | ⟨_, rfl⟩ | ⟨_, rfl⟩
  · omega
  all_goals exact UInt64.toNat_lt _

/-- A count is found under the name of its field, as a number. -/
theorem value?_of_mem_counts (given : (name, n) ∈ s.counts) :
    s.value? name = some (Binary64.ofNat n) := by
  simp only [counts, List.mem_cons, Prod.mk.injEq, List.not_mem_nil, or_false] at given
  rcases given with ⟨rfl, rfl⟩ | ⟨rfl, rfl⟩ | ⟨rfl, rfl⟩ | ⟨rfl, rfl⟩ | ⟨rfl, rfl⟩ <;>
    simp [value?, named]

end RunSummary

/-- Every count of a run and the number of samples of every distribution are shown as
the numeral of the nearest binary64 number, which is the count itself exactly if that has
at most 53 significant bits. The number of machines is always shown as it is. -/
theorem counts_shown :
    (∀ (run : Run) (name : String) (n : ℕ), (name, n) ∈ run.summary.counts →
      ∀ (f : Field) (place : String), f.name = name → f.kind = .instant → f.precision = 0 →
        ∃ text, f.row run .summary place = .ok ⟨name, f.label, text, f.width⟩ ∧
          ShowsCount n text ∧ (name = "hosts" → text = Digits.text n)) ∧
    ∀ d : Distribution Binary64, ∃ text,
      d.writeStatistic .count 0 = .ok text ∧ ShowsCount d.sampleCount.toNat text := by
  constructor
  · rintro run name n given f place rfl kind places
    have shown := showsCount_fixed (RunSummary.lt_of_mem_counts given)
    have held : run.instant? .summary f.name = some (Binary64.ofNat n) :=
      RunSummary.value?_of_mem_counts given
    have shows : f.Shows run .summary ((Binary64.ofNat n).fixed 0) :=
      places ▸ Field.Shows.instant kind held
    refine ⟨_, Field.row_eq_ok_iff.2 ⟨_, shows, rfl⟩, shown, fun hosts => shown.exact_of_le ?_⟩
    rw [hosts] at given
    have bits := run.summary.hosts.toNat_lt
    have count : n = run.summary.hosts.toNat := by simpa [RunSummary.counts] using given
    omega
  · intro d
    have few : (0 : ℤ) ≤ placesLimit := by decide
    exact ⟨_, (Binary64.writeStatistic_eq rfl 0).trans (Binary64.writeFixed_eq le_rfl few),
      showsCount_fixed d.sampleCount.toNat_lt⟩

/-- A run with the least count of slots that has more than 53 significant bits. -/
def Run.manySlots : Run :=
  let run := Run.level "a" 1
  { run with summary := { run.summary with slots := 9007199254740993 } }

/-- A field of one value for a run, without decimal places. -/
def Field.whole (name : String) : Field := { name }

/-- The slots of that run and its one machine are shown, each as a count is. -/
theorem counts_shown_manySlots :
    ("slots", 9007199254740993) ∈ Run.manySlots.summary.counts ∧
      (∃ text, (Field.whole "slots").row Run.manySlots .summary "" =
        .ok ⟨"slots", "", text, 6⟩ ∧ ShowsCount 9007199254740993 text) ∧
      ∃ text, (Field.whole "hosts").row Run.manySlots .summary "" =
        .ok ⟨"hosts", "", text, 6⟩ ∧ text = Digits.text 1 := by
  have slots : ("slots", 9007199254740993) ∈ Run.manySlots.summary.counts := by decide +kernel
  have hosts : ("hosts", 1) ∈ Run.manySlots.summary.counts := by decide +kernel
  obtain ⟨text, row, shows, _⟩ :=
    counts_shown.1 Run.manySlots _ _ slots (.whole "slots") "" rfl rfl rfl
  obtain ⟨text', row', _, asItIs⟩ :=
    counts_shown.1 Run.manySlots _ _ hosts (.whole "hosts") "" rfl rfl rfl
  exact ⟨slots, ⟨text, row, shows⟩, text', row', asItIs rfl⟩

/-- Neither those slots nor as many samples are shown as they are. -/
theorem count_not_shown_exactly :
    ((Field.whole "slots").row Run.manySlots .summary "" =
        .ok ⟨"slots", "", "9007199254740992", 6⟩ ∧
      Digits.text Run.manySlots.summary.slots.toNat ≠ "9007199254740992") ∧
    ((Distribution.constant 9007199254740993 1).writeStatistic .count 0 =
        .ok "9007199254740992" ∧
      Digits.text (Distribution.constant 9007199254740993 1).sampleCount.toNat ≠
        "9007199254740992") := by
  decide +kernel

end RunReport
