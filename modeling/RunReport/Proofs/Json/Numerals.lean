import RunReport.Proofs.Number.Decimal
import RunReport.Proofs.Number.Digits
import RunReport.Json.Parser
import RunReport.Json.Printer

/-!
# Numbers in JSON text

A finite binary64 number that is written as JSON is read back as the same
number, its sign and a zero's sign included, and an integer as what its digits
denote. The reader takes the whole numeral and nothing of the text behind it,
if that text does not go on like a number.
-/

namespace RunReport.Json

/-- The text does not go on like a number that stands in front of it. -/
def Stops (rest : List Char) : Prop :=
  ∀ c ∈ rest.head?, c.isDigit = false ∧ c ≠ '.' ∧ c ≠ 'e' ∧ c ≠ 'E'

/-- Digits are taken up to the first character that is none. -/
theorem span_digits {digits rest : List Char} (all : ∀ c ∈ digits, c.isDigit = true)
    (stop : ∀ c ∈ rest.head?, c.isDigit = false) :
    (digits ++ rest).takeWhile Char.isDigit = digits ∧
      (digits ++ rest).dropWhile Char.isDigit = rest := by
  rw [List.takeWhile_append_of_pos all, List.dropWhile_append_of_pos all]
  cases rest with
  | nil => simp
  | cons c rest => simp [stop c rfl]

/-- A point and digits are read as a fraction. -/
theorem readFraction_point {digits rest : List Char} (some : digits ≠ [])
    (all : ∀ c ∈ digits, c.isDigit = true) (stop : ∀ c ∈ rest.head?, c.isDigit = false) :
    readFraction ('.' :: digits ++ rest) = .some (digits, rest) := by
  obtain ⟨taken, left⟩ := span_digits all stop
  simp only [List.cons_append, readFraction, taken, left, List.isEmpty_iff, some, if_false]

/-- Without a point there is no fraction. -/
theorem readFraction_none {rest : List Char} (stop : ∀ c ∈ rest.head?, c ≠ '.') :
    readFraction rest = some ([], rest) := by
  cases rest with
  | nil => rfl
  | cons c rest =>
    have other := stop c rfl
    unfold readFraction
    split
    · rename_i same
      exact absurd (List.cons.inj same).1 other
    · rfl

/-- Without its mark there is no exponent. -/
theorem readPower_none {rest : List Char} (stop : ∀ c ∈ rest.head?, c ≠ 'e' ∧ c ≠ 'E') :
    readPower rest = some (none, rest) := by
  cases rest with
  | nil => rfl
  | cons c rest =>
    obtain ⟨small, great⟩ := stop c rfl
    simp [readPower, small, great]

/-- A mark, a sign and digits are read as an exponent. -/
theorem readPower_mark {negative : Bool} {digits rest : List Char} (some : digits ≠ [])
    (all : ∀ c ∈ digits, c.isDigit = true) (stop : ∀ c ∈ rest.head?, c.isDigit = false) :
    readPower ('e' :: (if negative then '-' else '+') :: digits ++ rest) =
      .some (.some (if negative then -(Digits.value digits : Int) else Digits.value digits),
        rest) := by
  obtain ⟨taken, left⟩ := span_digits all stop
  cases negative <;>
    simp [readPower, Decimal.readSign, taken, left, some]

/-- Digits that may stand in front of a fraction: at least one, and no
superfluous zero. -/
structure IsWhole (digits : List Char) : Prop where
  /-- All are digits. -/
  all : ∀ c ∈ digits, c.isDigit = true
  /-- There is one, and a zero stands alone. -/
  first : ∃ c rest, digits = c :: rest ∧ (c = '0' → rest = [])

/-- A zero alone is not superfluous. -/
theorem isWhole_zero : IsWhole ['0'] :=
  ⟨List.forall_mem_singleton.2 rfl, '0', [], rfl, fun _ => rfl⟩

/-- A digit is not a minus sign. -/
theorem ne_minus_of_isDigit {c : Char} (h : c.isDigit = true) : c ≠ '-' := by
  rintro rfl
  cases h

/-- A numeral is read as what its sign, whole part, fraction and exponent denote. -/
theorem readNumber_eq {negative : Bool} {whole fraction tail middle rest : List Char}
    {power : Option Int} (isWhole : IsWhole whole) (stop : ∀ c ∈ tail.head?, c.isDigit = false)
    (readsFraction : readFraction tail = some (fraction, middle))
    (readsPower : readPower middle = some (power, rest)) :
    readNumber (Binary64.withSign negative (whole ++ tail)) =
      some (if fraction.isEmpty && power.isNone then ofWhole negative whole
        else ofDecimal (Decimal.ofParts negative whole fraction (power.getD 0)), rest) := by
  obtain ⟨taken, left⟩ := span_digits isWhole.all stop
  obtain ⟨c, cs, rfl, alone⟩ := isWhole.first
  have digit := ne_minus_of_isDigit (isWhole.all c List.mem_cons_self)
  have sound : ((c :: cs).isEmpty || ((c :: cs).head? == some '0' &&
      decide (1 < (c :: cs).length))) = false := by
    by_cases zero : c = '0'
    · rw [alone zero, zero]
      rfl
    · simp [zero]
  unfold readNumber Binary64.withSign
  cases negative with
  | true =>
    simp only [if_true, taken, left, sound, readsFraction, readsPower, Option.bind_eq_bind,
      Option.bind_some, Bool.false_eq_true, if_false]
  | false =>
    simp only [Bool.false_eq_true, if_false]
    split
    · rename_i same
      exact absurd (List.cons.inj same).1 digit
    · simp only [taken, left, sound, readsFraction, readsPower, Option.bind_eq_bind,
        Option.bind_some, Bool.false_eq_true, if_false]

/-- A numeral has no superfluous zero in front. -/
theorem isWhole_numeral (n : Nat) : IsWhole (Digits.numeral n) := by
  obtain ⟨c, rest, split, notZero, alone⟩ := Digits.exists_numeral_eq_cons n
  refine ⟨fun c hc => Digits.isDigit_iff.2 (Digits.isDigit_of_mem_numeral hc), c, rest, split, ?_⟩
  intro zero
  by_cases positive : 0 < n
  · exact absurd zero (notZero positive)
  · exact alone (by omega)

/-- A numeral with a sign and nothing more is read as what its digits denote. -/
theorem readNumber_numeral {negative : Bool} {n : Nat} {rest : List Char} (stop : Stops rest) :
    readNumber (Binary64.withSign negative (Digits.numeral n ++ rest)) =
      some (ofWhole negative (Digits.numeral n), rest) :=
  readNumber_eq (isWhole_numeral n) (fun c hc => (stop c hc).1)
    (readFraction_none fun c hc => (stop c hc).2.1)
    (readPower_none fun c hc => (stop c hc).2.2)

/-- A numeral with a point is read as its digits, scaled by those behind the point. -/
theorem readNumber_point {negative : Bool} {whole fraction rest : List Char}
    (isWhole : IsWhole whole) (some : fraction ≠ []) (all : ∀ c ∈ fraction, c.isDigit = true)
    (stop : Stops rest) :
    readNumber (Binary64.withSign negative (whole ++ ('.' :: fraction ++ rest))) =
      .some (ofDecimal ⟨negative, Digits.value (whole ++ fraction), -(fraction.length : Int)⟩,
        rest) := by
  have point : ∀ c ∈ ('.' :: fraction ++ rest).head?, c.isDigit = false := by
    intro c hc
    obtain rfl : '.' = c := Option.some.inj hc
    decide
  rw [readNumber_eq isWhole point (readFraction_point some all fun c hc => (stop c hc).1)
    (readPower_none fun c hc => (stop c hc).2.2)]
  simp [some, Decimal.ofParts]

/-- A numeral with an exponent is read as its digits, scaled by the exponent
and by those behind a point. -/
theorem readNumber_power {negative below : Bool} {whole fraction digits rest : List Char}
    (isWhole : IsWhole whole) (all : ∀ c ∈ fraction, c.isDigit = true)
    (some : digits ≠ []) (allDigits : ∀ c ∈ digits, c.isDigit = true) (stop : Stops rest) :
    readNumber (Binary64.withSign negative (whole ++
        ((if fraction = [] then [] else '.' :: fraction) ++
          ('e' :: (if below then '-' else '+') :: digits ++ rest)))) =
      .some (ofDecimal ⟨negative, Digits.value (whole ++ fraction),
        (if below then -(Digits.value digits : Int) else Digits.value digits) - fraction.length⟩,
        rest) := by
  have power := @readPower_mark below digits rest some allDigits fun c hc => (stop c hc).1
  have mark : ∀ c ∈ ('e' :: (if below then '-' else '+') :: digits ++ rest).head?, c = 'e' := by
    intro c hc
    exact (Option.some.inj hc).symm
  by_cases none : fraction = []
  · rw [if_pos none, List.nil_append,
      readNumber_eq isWhole (fun c hc => mark c hc ▸ by decide)
        (readFraction_none fun c hc => mark c hc ▸ by decide) power]
    simp [none, Decimal.ofParts]
  · have point : ∀ c ∈ ('.' :: fraction ++
        ('e' :: (if below then '-' else '+') :: digits ++ rest)).head?, c.isDigit = false := by
      intro c hc
      obtain rfl : '.' = c := Option.some.inj hc
      decide
    rw [if_neg none, readNumber_eq isWhole point
      (readFraction_point none all fun c hc => mark c hc ▸ by decide) power]
    simp [Decimal.ofParts]

/-- Significant digits: at least one, and the first is not zero. -/
structure IsSignificant (digits : List Char) : Prop where
  /-- All are digits. -/
  all : ∀ c ∈ digits, c.isDigit = true
  /-- The first is not zero. -/
  first : ∃ c rest, digits = c :: rest ∧ c ≠ '0'

/-- The shortest numeral consists of significant digits and a place of the point
that together denote the number, and it is laid out in one of two ways. -/
theorem exists_magnitude_eq (style : NumeralStyle) {n : Nat} (onGrid : Binary64.Representable n)
    (notZero : 0 < n) :
    ∃ digits place, IsSignificant digits ∧
      (∀ negative, (⟨negative, Digits.value digits, place - digits.length⟩ : Decimal).toBinary64 =
        .finite negative n onGrid) ∧
      (style.magnitude n = style.positional digits place ∨
        style.magnitude n = style.scientific digits place) := by
  have denotes := fun negative =>
    @Decimal.toBinary64_shortestDecimal style.tieUp negative n onGrid notZero
  unfold NumeralStyle.magnitude
  rw [if_neg notZero.ne']
  dsimp only
  generalize Binary64.shortestDecimal style.tieUp n = found at denotes ⊢
  obtain ⟨count, exponent⟩ := found
  dsimp only at denotes ⊢
  obtain ⟨zeros, split⟩ := NumeralStyle.exists_append_zeros (Digits.numeral count)
  generalize written : NumeralStyle.stripZeros (Digits.numeral count) = digits at split ⊢
  refine ⟨digits, (Digits.numeral count).length + exponent, ?_, ?_, ?_⟩
  · have positive : 0 < count := by
      refine Nat.pos_of_ne_zero fun none => ?_
      subst none
      have zero : Binary64.zero false = .finite false n onGrid := denotes false
      exact notZero.ne (Binary64.finite.inj zero).2
    obtain ⟨c, rest, front, first, _⟩ := Digits.exists_numeral_eq_cons count
    rw [front] at split
    refine ⟨fun d hd => ?_, ?_⟩
    · have member : d ∈ Digits.numeral count := by
        rw [front, split]
        exact List.mem_append_left _ hd
      exact Digits.isDigit_iff.2 (Digits.isDigit_of_mem_numeral member)
    · cases digits with
      | nil =>
        have zero : c = '0' := List.eq_of_mem_replicate (split ▸ List.mem_cons_self)
        exact absurd zero (first positive)
      | cons d ds => exact ⟨d, ds, rfl, (List.cons.inj split).1 ▸ first positive⟩
  · intro negative
    have value : count = Digits.value digits * 10 ^ zeros := by
      have both := congrArg Digits.value split
      rwa [Digits.value_numeral, Digits.value_append, Digits.value_zeros, List.length_replicate,
        Nat.add_zero] at both
    have length : ((Digits.numeral count).length : Int) = digits.length + zeros := by
      rw [split, List.length_append, List.length_replicate, Nat.cast_add]
    rw [← denotes negative, value, Decimal.toBinary64_mul_pow]
    congr 2
    rw [← value]
    omega
  · split_ifs
    · exact Or.inl rfl
    · exact Or.inr rfl

namespace IsSignificant

variable {negative : Bool} {digits rest : List Char} {place : Int}

/-- The first significant digits are a whole part. -/
theorem isWhole_take (h : IsSignificant digits) {k : Nat} (positive : 0 < k) :
    IsWhole (digits.take k) := by
  obtain ⟨c, cs, rfl, notZero⟩ := h.first
  obtain ⟨j, rfl⟩ := Nat.exists_eq_add_one.2 positive
  exact ⟨fun d hd => h.all d (List.mem_of_mem_take hd), c, cs.take j, rfl,
    fun zero => absurd zero notZero⟩

/-- Significant digits with zeros behind them are a whole part. -/
theorem isWhole_append_zeros (h : IsSignificant digits) (k : Nat) :
    IsWhole (digits ++ List.replicate k '0') := by
  obtain ⟨c, cs, rfl, notZero⟩ := h.first
  refine ⟨fun d hd => ?_, c, cs ++ List.replicate k '0', rfl, fun zero => absurd zero notZero⟩
  rcases List.mem_append.1 hd with front | back
  · exact h.all d front
  · rw [List.eq_of_mem_replicate back]
    decide

/-- Digits laid out without an exponent are read as the number that they denote
at their place. -/
theorem readNumber_positional (h : IsSignificant digits) (stop : Stops rest) :
    ∃ d : Decimal, readNumber (Binary64.withSign negative
        (numberStyle.positional digits place ++ rest)) = some (ofDecimal d, rest) ∧
      d.toBinary64 =
        (⟨negative, Digits.value digits, place - digits.length⟩ : Decimal).toBinary64 := by
  have some : digits ≠ [] := by
    obtain ⟨c, cs, rfl, _⟩ := h.first
    exact List.cons_ne_nil c cs
  unfold NumeralStyle.positional
  split
  · rename_i before
    have fraction : ∀ c ∈ List.replicate (-place).toNat '0' ++ digits, c.isDigit = true := by
      intro c hc
      rcases List.mem_append.1 hc with front | back
      · rw [List.eq_of_mem_replicate front]
        decide
      · exact h.all c back
    have text : '0' :: '.' :: List.replicate (-place).toNat '0' ++ digits ++ rest =
        ['0'] ++ ('.' :: (List.replicate (-place).toNat '0' ++ digits) ++ rest) := rfl
    rw [text]
    have fractional := List.append_ne_nil_of_right_ne_nil (List.replicate (-place).toNat '0') some
    refine ⟨_, readNumber_point isWhole_zero fractional fraction stop, ?_⟩
    have value : Digits.value (['0'] ++ (List.replicate (-place).toNat '0' ++ digits)) =
        Digits.value digits := by
      rw [← List.append_assoc, Digits.value_append, Digits.value_append, Digits.value_zeros]
      simp [Digits.value, Digits.digitValue]
    have length : -((List.replicate (-place).toNat '0' ++ digits).length : Int) =
        place - digits.length := by
      rw [List.length_append, List.length_replicate, Nat.cast_add]
      omega
    rw [value, length]
  split
  · rename_i before inside
    have fraction : ∀ c ∈ digits.drop place.toNat, c.isDigit = true :=
      fun c hc => h.all c (List.mem_of_mem_drop hc)
    have left : digits.drop place.toNat ≠ [] := by
      rw [Ne, List.drop_eq_nil_iff]
      omega
    rw [List.append_assoc]
    refine ⟨_, readNumber_point (h.isWhole_take (by omega)) left fraction stop, ?_⟩
    have length : -((digits.drop place.toNat).length : Int) = place - digits.length := by
      rw [List.length_drop]
      omega
    rw [List.take_append_drop, length]
  · rename_i before inside
    rw [show numberStyle.keepsPoint = true from rfl, if_pos rfl, List.append_assoc]
    refine ⟨_, readNumber_point (h.isWhole_append_zeros _) (List.cons_ne_nil _ _)
      isWhole_zero.all stop, ?_⟩
    have value : Digits.value
        (digits ++ List.replicate (place.toNat - digits.length) '0' ++ ['0']) =
        Digits.value digits * 10 ^ (place.toNat - digits.length + 1) := by
      rw [List.append_assoc, ← List.replicate_succ', Digits.value_append, Digits.value_zeros,
        List.length_replicate, Nat.add_zero]
    rw [value, Decimal.toBinary64_mul_pow]
    congr 2
    rw [List.length_singleton]
    omega

/-- Digits laid out with an exponent are read as the number that they denote at
their place. -/
theorem readNumber_scientific (h : IsSignificant digits) (stop : Stops rest) :
    readNumber (Binary64.withSign negative (numberStyle.scientific digits place ++ rest)) =
      some (ofDecimal ⟨negative, Digits.value digits, place - digits.length⟩, rest) := by
  have whole := h.isWhole_take Nat.one_pos
  have all : ∀ c ∈ digits.drop 1, c.isDigit = true := fun c hc => h.all c (List.mem_of_mem_drop hc)
  have power : ∀ c ∈ Digits.numeral (place - 1).natAbs, c.isDigit = true :=
    (isWhole_numeral _).all
  have some : Digits.numeral (place - 1).natAbs ≠ [] := by
    obtain ⟨c, cs, split, _⟩ := Digits.exists_numeral_eq_cons (place - 1).natAbs
    exact split ▸ List.cons_ne_nil c cs
  have read :=
    @readNumber_power negative (decide (place - 1 < 0)) _ _ _ rest whole all some power stop
  have short : digits.drop 1 = [] ↔ digits.length ≤ 1 := List.drop_eq_nil_iff
  have text : numberStyle.scientific digits place ++ rest =
      digits.take 1 ++ ((if digits.drop 1 = [] then [] else '.' :: digits.drop 1) ++
        ('e' :: (if decide (place - 1 < 0) then '-' else '+') ::
          Digits.numeral (place - 1).natAbs ++ rest)) := by
    unfold NumeralStyle.scientific
    simp only [short, decide_eq_true_eq]
    by_cases below : place - 1 < 0
    · simp [below]
    · simp [below, numberStyle]
  have length : (if decide (place - 1 < 0) = true then
        -(Digits.value (Digits.numeral (place - 1).natAbs) : Int)
      else Digits.value (Digits.numeral (place - 1).natAbs)) - (digits.drop 1).length =
      place - digits.length := by
    obtain ⟨c, cs, rfl, _⟩ := h.first
    rw [Digits.value_numeral]
    simp only [decide_eq_true_eq, List.drop_one, List.tail_cons, List.length_cons]
    split <;> omega
  rw [text, read, length, List.take_append_drop]

end IsSignificant

/-- What stands behind the sign of a number stands behind the number. -/
theorem withSign_append (negative : Bool) (digits rest : List Char) :
    Binary64.withSign negative digits ++ rest = Binary64.withSign negative (digits ++ rest) := by
  cases negative <;> rfl

/-- A finite number is read back from its text as it was. -/
theorem readNumber_writeDecimal {x : Binary64} (finite : x.isFinite = true) {rest : List Char}
    (stop : Stops rest) : readNumber (writeDecimal x ++ rest) = some (.decimal x, rest) := by
  cases x with
  | infinite negative => cases finite
  | nan => cases finite
  | finite negative n onGrid =>
    have text : writeDecimal (.finite negative n onGrid) =
        Binary64.withSign negative (numberStyle.magnitude n) := by
      simp only [writeDecimal, Binary64.isFinite, if_true, NumeralStyle.write, String.toList_ofList]
    rw [text, withSign_append]
    by_cases zero : n = 0
    · subst zero
      exact @readNumber_point negative _ _ rest isWhole_zero (List.cons_ne_nil '0' [])
        isWhole_zero.all stop
    · obtain ⟨digits, place, significant, denotes, laidOut⟩ :=
        exists_magnitude_eq numberStyle onGrid (Nat.pos_of_ne_zero zero)
      rcases laidOut with plain | scaled
      · obtain ⟨d, read, same⟩ := @significant.readNumber_positional negative digits rest place stop
        rw [plain, read, ofDecimal, same, denotes]
        rfl
      · rw [scaled, significant.readNumber_scientific stop, ofDecimal, denotes]
        rfl

end RunReport.Json
