import Mathlib.Algebra.Order.Field.Basic
import RunReport.Distribution.Basic
import RunReport.Proofs.Json.Numerals
import RunReport.Proofs.Number.Nearest

/-!
# Numbers with a count of decimal places

A number that is written with a count of decimal places is written as a numeral of
exactly that many, with a minus sign exactly if the number has one, and the numeral
denotes the multiple of the last place that is nearest to the exact value. Of two
that are as near it ends in an even digit. So numerals with as many places are in
the order of their numbers. All of this holds up to the most places that a numeral
can have, and beyond them nothing is written.
-/

namespace RunReport

namespace Decimal

/-- A sign is read off the front of a whole part. -/
theorem readSign_withSign {negative : Bool} {whole : List Char} (isWhole : Json.IsWhole whole)
    (tail : List Char) :
    readSign (Binary64.withSign negative (whole ++ tail)) = (negative, whole ++ tail) := by
  obtain ⟨c, rest, rfl, _⟩ := isWhole.first
  have digit := isWhole.all c List.mem_cons_self
  cases negative with
  | true => rfl
  | false =>
    simp only [Binary64.withSign, Bool.false_eq_true, if_false, List.cons_append]
    unfold readSign
    split
    · rename_i same
      rw [(List.cons.inj same).1] at digit
      cases digit
    · rename_i same
      rw [(List.cons.inj same).1] at digit
      cases digit
    · rfl

/-- A sign, a whole part and perhaps a point and a fraction are read as what they denote. -/
theorem read_withSign {negative : Bool} {whole fraction tail : List Char}
    (isWhole : Json.IsWhole whole) (all : ∀ c ∈ fraction, c.isDigit = true)
    (pointed : tail = '.' :: fraction ∨ tail = [] ∧ fraction = []) :
    read (Binary64.withSign negative (whole ++ tail)) =
      some (ofParts negative whole fraction 0) := by
  have stop : ∀ c ∈ tail.head?, c.isDigit = false := by
    rcases pointed with rfl | ⟨rfl, _⟩
    · intro c hc
      obtain rfl : '.' = c := Option.some.inj hc
      decide
    · intro c hc
      cases hc
  obtain ⟨taken, left⟩ := Json.span_digits isWhole.all stop
  have some : whole.isEmpty = false := by
    obtain ⟨c, rest, rfl, _⟩ := isWhole.first
    rfl
  have ended : ∀ c ∈ ([] : List Char).head?, c.isDigit = false := by simp
  have spanned := Json.span_digits all ended
  rw [List.append_nil] at spanned
  unfold read
  simp only [readSign_withSign isWhole, taken, left]
  rcases pointed with rfl | ⟨rfl, rfl⟩
  · simp [some, spanned.1, spanned.2, readExponent]
  · simp [some, readExponent]

/-- The numeral of a count of last places, as a rational number. -/
theorem toRat_places (negative : Bool) (steps places : ℕ) :
    (⟨negative, steps, -(places : ℤ)⟩ : Decimal).toRat =
      Binary64.signed negative steps / 10 ^ places := by
  rw [toRat]
  dsimp only
  rw [zpow_neg, zpow_natCast, div_eq_mul_inv]

end Decimal

namespace Binary64

/-- A text with a count of decimal places is the correctly rounded numeral of a number. -/
structure RoundsTo (x : Binary64) (places : ℕ) (text : String) (d : Decimal) : Prop where
  /-- The text is a sign exactly if the number has one, a whole part without superfluous
  zeros and, unless no places are asked for, a point and as many digits. -/
  layout : ∃ whole fraction, text.toList = withSign x.isNegative
      (whole ++ if places = 0 then [] else '.' :: fraction) ∧
    Json.IsWhole whole ∧ (∀ c ∈ fraction, c.isDigit = true) ∧ fraction.length = places
  /-- It is read as the numeral. -/
  reads : Decimal.read text.toList = some d
  /-- The numeral denotes a multiple of the last place. -/
  multiple : ∃ k : ℤ, d.toRat = k / 10 ^ places
  /-- No multiple of the last place is nearer to the number. -/
  nearest : ∀ k : ℤ, |x.toRat - d.toRat| ≤ |x.toRat - k / 10 ^ places|
  /-- If another one is as near, the last digit is even. -/
  even : ∀ k : ℤ, (k : ℚ) / 10 ^ places ≠ d.toRat →
    |x.toRat - k / 10 ^ places| = |x.toRat - d.toRat| →
      ∀ c ∈ text.toList.getLast?, Digits.digitValue c % 2 = 0

/-- A count of last places is written as a whole part, a point and a fraction. -/
theorem exists_fixedDigits_eq (steps places : ℕ) : ∃ whole fraction,
    fixedDigits steps places = whole ++ (if places = 0 then [] else '.' :: fraction) ∧
      Json.IsWhole whole ∧ (∀ c ∈ fraction, c.isDigit = true) ∧ fraction.length = places ∧
        Digits.value (whole ++ fraction) = steps := by
  by_cases none : places = 0
  · subst none
    refine ⟨Digits.numeral steps, [], ?_, Json.isWhole_numeral _, by simp, rfl, ?_⟩
    · simp [fixedDigits]
    · rw [List.append_nil, Digits.value_numeral]
  · have width := Digits.length_padded (Nat.pos_of_ne_zero none)
      (Nat.mod_lt steps (Nat.pow_pos (by decide) : 0 < 10 ^ places))
    refine ⟨_, _, rfl, Json.isWhole_numeral _, fun c => Digits.isDigit_of_mem_padded, width, ?_⟩
    rw [Digits.value_append, width, Digits.value_numeral, Digits.value_padded]
    exact Nat.div_add_mod' steps _

/-- A numeral is even exactly if its last digit is. -/
theorem value_mod_two {digits : List Char} {c : Char} (last : c ∈ digits.getLast?) :
    Digits.value digits % 2 = Digits.digitValue c % 2 := by
  obtain ⟨front, rfl⟩ := List.getLast?_eq_some_iff.1 last
  have single : Digits.value [c] = Digits.digitValue c := Nat.zero_add _
  rw [Digits.value_append, single, List.length_singleton, Nat.pow_one]
  omega

/-- Neither a sign nor a point is the last character of a text. -/
theorem getLast?_withSign {negative : Bool} {whole fraction : List Char} {places : ℕ}
    (isWhole : Json.IsWhole whole) (length : fraction.length = places) :
    (withSign negative (whole ++ if places = 0 then [] else '.' :: fraction)).getLast? =
      (whole ++ fraction).getLast? := by
  obtain ⟨c, rest, rfl, _⟩ := isWhole.first
  by_cases none : places = 0
  · obtain rfl := List.length_eq_zero_iff.1 (length.trans none)
    cases negative <;> simp [none, withSign]
  · obtain ⟨d, behind, rfl⟩ := List.exists_cons_of_ne_nil fun empty : fraction = [] =>
      none (length.symm.trans (congrArg List.length empty))
    cases negative <;> simp [none, withSign, List.getLast?_append, List.getLast?_cons]

/-- The distance of a number from a multiple of the last place, in quanta of the last place. -/
theorem abs_div_sub_step (s : Bool) (n places : ℕ) (k : ℤ) {quanta : ℕ} (positive : 0 < quanta) :
    |(signed s n : ℚ) / quanta - k / 10 ^ places| =
      (|signed s (n * 10 ^ places) - k * quanta| : ℤ) / (10 ^ places * quanta) := by
  have scale : (0 : ℚ) < quanta := by exact_mod_cast positive
  have power : (0 : ℚ) < 10 ^ places := by positivity
  have difference : (signed s n : ℚ) / quanta - k / 10 ^ places =
      ((signed s (n * 10 ^ places) - k * quanta : ℤ) : ℚ) / (10 ^ places * quanta) := by
    cases s <;> simp only [signed, if_true, Bool.false_eq_true, if_false] <;> push_cast <;>
      field_simp
  rw [difference, abs_div, abs_of_pos (mul_pos power scale), Int.cast_abs]

/-- The fixed-point text of a finite number is its correctly rounded numeral. -/
theorem roundsTo_fixed (s : Bool) {n : ℕ} (onGrid : Representable n) (places : ℕ) :
    RoundsTo (.finite s n onGrid) places ((Binary64.finite s n onGrid).fixed places)
      ⟨s, fixedSteps n places, -(places : ℤ)⟩ := by
  have quantum : 0 < unit := Nat.two_pow_pos _
  have nearest : IsNearest (n * 10 ^ places) unit (fixedSteps n places) :=
    isNearest_roundHalfEven quantum _
  obtain ⟨whole, fraction, laid, isWhole, all, length, value⟩ :=
    exists_fixedDigits_eq (fixedSteps n places) places
  have text : ((Binary64.finite s n onGrid).fixed places).toList =
      withSign s (whole ++ if places = 0 then [] else '.' :: fraction) := by
    rw [fixed, String.toList_ofList, laid]
  have distance : ∀ k : ℤ, |(Binary64.finite s n onGrid).toRat - k / 10 ^ places| =
      (|signed s (n * 10 ^ places) - k * unit| : ℤ) / (10 ^ places * unit) :=
    fun k => abs_div_sub_step s n places k quantum
  have scale : (0 : ℚ) < 10 ^ places * unit := mul_pos (by positivity) unit_pos
  have own : ∀ k : ℤ, |signed s (n * 10 ^ places) - signed s (fixedSteps n places) * unit| ≤
      |signed s (n * 10 ^ places) - k * unit| := fun k => by
    rw [abs_signed_sub, abs_signed_sub_int]
    exact nearest.distance_le _
  refine ⟨⟨whole, fraction, text, isWhole, all, length⟩, ?_, ?_, ?_, ?_⟩
  · have pointed : (if places = 0 then [] else '.' :: fraction) = '.' :: fraction ∨
        (if places = 0 then [] else '.' :: fraction) = [] ∧ fraction = [] := by
      by_cases none : places = 0
      · exact Or.inr ⟨if_pos none, List.length_eq_zero_iff.1 (length.trans none)⟩
      · exact Or.inl (if_neg none)
    rw [text, Decimal.read_withSign isWhole all pointed, Decimal.ofParts, value, length, zero_sub]
  · exact ⟨_, Decimal.toRat_places s _ places⟩
  · intro k
    rw [Decimal.toRat_places, distance, distance]
    exact div_le_div_of_nonneg_right (Int.cast_le.2 (own k)) scale.le
  · intro k other tie c last
    rw [Decimal.toRat_places] at other tie
    rw [distance, distance, div_left_inj' scale.ne', Int.cast_inj] at tie
    rw [abs_signed_sub, abs_signed_sub_int] at tie
    rw [text, getLast?_withSign isWhole length] at last
    rw [← value_mod_two last, value]
    refine nearest.even_of_tie quantum (fun same => other ?_) tie
    have whole : k = signed s (fixedSteps n places) := by
      cases s with
      | false => exact same
      | true => exact neg_eq_iff_eq_neg.1 same
    rw [whole]

/-- Numbers of last places are in the order of the numbers they come from. -/
theorem signed_fixedSteps_mono {s t : Bool} {m n : ℕ} (le : signed s m ≤ signed t n)
    (places : ℕ) : signed s (fixedSteps m places) ≤ signed t (fixedSteps n places) := by
  have quantum : 0 < unit := Nat.two_pow_pos _
  have mono : ∀ {i j : ℕ}, i ≤ j → fixedSteps i places ≤ fixedSteps j places := fun {i j} below =>
    roundHalfEven_mono quantum quantum
      (Nat.mul_le_mul_right unit (Nat.mul_le_mul_right (10 ^ places) below))
  have nothing : fixedSteps 0 places = 0 := by
    rw [fixedSteps, Nat.zero_mul]
    have whole := roundHalfEven_mul quantum 0
    rwa [Nat.zero_mul] at whole
  cases s <;> cases t <;>
    simp only [signed, if_true, Bool.false_eq_true, if_false] at le ⊢
  · exact_mod_cast mono (by omega)
  · obtain ⟨rfl, rfl⟩ : m = 0 ∧ n = 0 := by omega
    simp [nothing]
  · omega
  · have turned := mono (show n ≤ m by omega)
    omega

/-- A natural number of places is asked for as an integer. -/
theorem writeFixed_eq {x : Binary64} {precision : ℤ} (nonneg : 0 ≤ precision)
    (few : precision ≤ placesLimit) :
    x.writeFixed precision = .ok (x.fixed precision.toNat) := by
  rw [writeFixed, if_neg (not_lt.2 few), fixed?, if_neg (not_lt.2 nonneg)]
  rfl

/-- More places than a numeral can have are not written. -/
theorem writeFixed_of_many (x : Binary64) {precision : ℤ} (many : placesLimit < precision) :
    x.writeFixed precision = .error .crashed := if_pos many

/-- What is read off a distribution is written as any other number. -/
theorem writeStatistic_eq {d : Distribution Binary64} {shown : Statistic} {x : Binary64}
    (read : d.statistic? shown = some x) (precision : ℤ) :
    d.writeStatistic shown precision = x.writeFixed precision := by
  simp only [Distribution.writeStatistic, Distribution.statisticText, writeFixed, read,
    Option.isSome_some, and_true]

/-- A count of places below zero is refused. Up to the most places that a numeral can
have, every finite number is written as its correctly rounded numeral, and of two
finite numbers in order the numerals are in order too. With more places nothing is
written, whatever the number. A number that is read off a distribution is written in
the same way. -/
theorem writeFixed_outcome (precision : ℤ) :
    (precision < 0 → ∀ x : Binary64,
      x.writeFixed precision = .error (.refused (.invalidPrecision precision))) ∧
    (0 ≤ precision → precision ≤ placesLimit →
      (∀ x : Binary64, x.isFinite = true → ∃ text d,
        x.writeFixed precision = .ok text ∧ RoundsTo x precision.toNat text d) ∧
      ∀ x y : Binary64, x.isFinite = true → y.isFinite = true → x.le y = true → ∃ s t d e,
        x.writeFixed precision = .ok s ∧ y.writeFixed precision = .ok t ∧
          Decimal.read s.toList = some d ∧ Decimal.read t.toList = some e ∧
            d.toRat ≤ e.toRat) ∧
    (placesLimit < precision → ∀ x : Binary64, x.writeFixed precision = .error .crashed) ∧
    ∀ (d : Distribution Binary64) (shown : Statistic) (x : Binary64),
      d.statistic? shown = some x → d.writeStatistic shown precision = x.writeFixed precision := by
  refine ⟨fun negative x => ?_,
    fun nonneg few => ⟨fun x finite => ?_, fun x y finiteX finiteY le => ?_⟩,
    fun many x => writeFixed_of_many x many, fun _ _ _ read => writeStatistic_eq read precision⟩
  · have few : ¬ placesLimit < precision := by
      unfold placesLimit
      omega
    rw [writeFixed, if_neg few, fixed?, if_pos negative]
    rfl
  · obtain ⟨s, n, onGrid, rfl⟩ := exists_eq_finite finite
    exact ⟨_, _, writeFixed_eq nonneg few, roundsTo_fixed s onGrid precision.toNat⟩
  · obtain ⟨s, m, onGrid, rfl⟩ := exists_eq_finite finiteX
    obtain ⟨t, n, onGrid', rfl⟩ := exists_eq_finite finiteY
    have below : signed s m ≤ signed t n := (le_iff_of_place rfl rfl).1 le
    refine ⟨_, _, _, _, writeFixed_eq nonneg few, writeFixed_eq nonneg few,
      (roundsTo_fixed s onGrid _).reads, (roundsTo_fixed t onGrid' _).reads, ?_⟩
    rw [Decimal.toRat_places, Decimal.toRat_places]
    have steps := signed_fixedSteps_mono below precision.toNat
    exact div_le_div_of_nonneg_right (Int.cast_le.2 steps) (by positivity)

/-- A quarter with the given sign, half way between two and three tenths. -/
def quarter (negative : Bool) : Binary64 := (⟨negative, 25, -2⟩ : Decimal).toBinary64

/-- Quarters are written with one place but not with a negative count or with too many. -/
theorem writeFixed_outcome_quarters :
    (quarter true).writeFixed (-1) = .error (.refused (.invalidPrecision (-1))) ∧
      (∃ text d, (quarter true).writeFixed 1 = .ok text ∧ RoundsTo (quarter true) 1 text d) ∧
      (∃ s t d e, (quarter true).writeFixed 1 = .ok s ∧
        (quarter false).writeFixed 1 = .ok t ∧
        Decimal.read s.toList = some d ∧ Decimal.read t.toList = some e ∧ d.toRat ≤ e.toRat) ∧
      (quarter true).writeFixed 65536 = .error .crashed := by
  have finite : ∀ s, (quarter s).isFinite = true := by decide +kernel
  have order : (quarter true).le (quarter false) = true := by decide +kernel
  obtain ⟨rounds, ordered⟩ := (writeFixed_outcome 1).2.1 (by decide) (by decide)
  exact ⟨(writeFixed_outcome (-1)).1 (by decide) _, rounds _ (finite true),
    ordered _ _ (finite true) (finite false) order,
    (writeFixed_outcome 65536).2.2.1 (by decide) _⟩

example : (quarter true).writeFixed 1 = .ok "-0.2" := by decide +kernel

/-- One is not written with more places than a numeral can have. -/
theorem one_not_written_beyond : (0 : ℤ) ≤ 65536 ∧ (ofNat 1).isFinite = true ∧
    ¬ ∃ text d, (ofNat 1).writeFixed 65536 = .ok text ∧ RoundsTo (ofNat 1) 65536 text d := by
  refine ⟨by decide, by decide +kernel, ?_⟩
  rintro ⟨text, d, written, _⟩
  rw [writeFixed_of_many _ (by decide)] at written
  cases written

end Binary64

end RunReport
