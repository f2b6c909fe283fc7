import RunReport.Proofs.Json.Numerals
import RunReport.Time.Text

/-!
# Timestamps that are written and read back

The text of a timestamp denotes that timestamp, whatever its year and however fine
its fraction of a second.
-/

namespace RunReport.Timestamp

open Digits

/-- Digits are not blank. -/
theorem isBlank_of_isDigit {c : Char} (h : c.isDigit = true) : Text.isBlank c = false := by
  obtain ⟨low, high⟩ := isDigit_iff.1 h
  have low : 48 ≤ c.toNat := low
  have high : c.toNat ≤ 57 := high
  simp only [Text.isBlank, Bool.or_eq_false_iff, Bool.and_eq_false_iff, decide_eq_false_iff_not,
    beq_eq_false_iff_ne]
  omega

/-- Nothing is cut in front of a numeral. -/
theorem trimStart_padded (width n : Nat) (rest : List Char) :
    Text.trimStart (padded width (numeral n) ++ rest) = padded width (numeral n) ++ rest := by
  obtain ⟨c, tail, split, digit⟩ := exists_padded_eq_cons width n
  rw [split, List.cons_append, Text.trimStart,
    List.dropWhile_cons_of_neg (by simp [isBlank_of_isDigit digit])]

/-- A numeral with zeros in front is read up to its end, if there is room for all of
its digits and none follows. -/
theorem readNumber_padded {width n : Nat} {room : Option Nat} {rest : List Char}
    (fits : ∀ w ∈ room, (padded width (numeral n)).length ≤ w)
    (stop : ∀ c ∈ rest.head?, c.isDigit = false) :
    readNumber room (padded width (numeral n) ++ rest) = some (n, rest) := by
  have all : ∀ c ∈ padded width (numeral n), c.isDigit = true := fun c => isDigit_of_mem_padded
  have digits := (Json.span_digits all stop).1
  obtain ⟨c, tail, split, _⟩ := exists_padded_eq_cons width n
  have some : (padded width (numeral n)).isEmpty = false := by
    rw [split]
    rfl
  unfold readNumber
  rw [trimStart_padded]
  dsimp only
  rw [digits]
  cases room with
  | none => simp only [some, Bool.false_eq_true, if_false, value_padded, List.drop_left]
  | some w =>
    simp only [List.take_of_length_le (fits w rfl), some, Bool.false_eq_true, if_false,
      value_padded, List.drop_left]

/-- Two digits are read up to a character that is none. -/
theorem readNumber_two {n : Nat} (fits : n < 100) {rest : List Char}
    (stop : ∀ c ∈ rest.head?, c.isDigit = false) :
    readNumber (some 2) (padded 2 (numeral n) ++ rest) = some (n, rest) :=
  readNumber_padded (by simp [length_padded (show 0 < 2 by decide) fits]) stop

/-- A sign and digits are read as a year, however many digits there are. -/
theorem readYear_signed (negative : Bool) (n : Nat) (rest : List Char) :
    readYear ((if negative then '-' else '+') :: (padded 4 (numeral n) ++ '-' :: rest)) =
      some (if negative then -(n : Int) else n, '-' :: rest) := by
  have long := @readNumber_padded 4 n none ('-' :: rest) (by simp) (by simp)
  obtain ⟨c, tail, split, digit⟩ := exists_padded_eq_cons 4 n
  rw [split, List.cons_append] at long ⊢
  cases negative <;> simp [readYear, Text.trimStart, Text.isBlank, digit, long]

/-- Four digits are read as a year. -/
theorem readYear_padded {n : Nat} (fits : n < 10 ^ 4) (rest : List Char) :
    readYear (padded 4 (numeral n) ++ '-' :: rest) = some ((n : Int), '-' :: rest) := by
  have four := @readNumber_padded 4 n (some 4) ('-' :: rest)
    (by simp [length_padded (show 0 < 4 by decide) fits]) (by simp)
  have start := trimStart_padded 4 n ('-' :: rest)
  obtain ⟨c, tail, split, digit⟩ := exists_padded_eq_cons 4 n
  rw [split] at four start ⊢
  unfold readYear
  rw [start]
  split
  · rename_i same
    rw [(List.cons.inj same).1] at digit
    cases digit
  · rename_i same
    rw [(List.cons.inj same).1] at digit
    cases digit
  · rw [four]
    rfl

/-- A year is read up to the dash behind it. -/
theorem readYear_yearText (year : Int) (rest : List Char) :
    readYear ((yearText year).toList ++ '-' :: rest) = some (year, '-' :: rest) := by
  unfold yearText
  by_cases plain : 0 ≤ year ∧ year ≤ 9999
  · have read := readYear_padded (show year.toNat < 10 ^ 4 by omega) rest
    rw [if_pos plain, paddedText, String.toList_ofList, read, Int.toNat_of_nonneg plain.1]
  · have read := readYear_signed (decide (year < 0)) year.natAbs rest
    rw [if_neg plain]
    by_cases negative : year < 0
    · simpa [negative, paddedText, Int.ofNat_natAbs_of_nonpos negative.le] using read
    · have same : (year.natAbs : Int) = year := Int.natAbs_of_nonneg (Int.not_lt.1 negative)
      simpa [negative, paddedText, same] using read

/-- A separator is read where it stands. -/
theorem readSeparator_self {c : Char} (visible : Text.isBlank c = false) (rest : List Char) :
    readSeparator c (c :: rest) = some rest := by
  rw [readSeparator, Text.trimStart, List.dropWhile_cons_of_neg (by simp [visible])]
  exact if_pos rfl

/-- A fraction of a second is read from as many digits as it is written with. -/
theorem readFraction_padded {width n : Nat} (positive : 0 < width) (small : width ≤ 9)
    (fits : n < 10 ^ width) :
    readFraction ('.' :: (padded width (numeral n) ++ ['Z'])) =
      some (n * 10 ^ (9 - width), ['Z']) := by
  have all : ∀ c ∈ padded width (numeral n), c.isDigit = true := fun c => isDigit_of_mem_padded
  have digits : (padded width (numeral n) ++ ['Z']).takeWhile Char.isDigit =
      padded width (numeral n) := (Json.span_digits all (by simp)).1
  have length := length_padded positive fits
  have some : (padded width (numeral n)).isEmpty = false := by
    rw [List.isEmpty_eq_false_iff, ← List.length_pos_iff, length]
    exact positive
  simp only [readFraction, digits, some, Bool.false_eq_true, if_false,
    List.take_of_length_le (length.trans_le small), value_padded, length, List.drop_left' length]

/-- The fraction of a second is read up to the mark of universal time. -/
theorem readFraction_fractionText {nanosecond : Nat} (below : nanosecond < 10 ^ 9) :
    readFraction ((fractionText nanosecond).toList ++ ['Z']) = some (nanosecond, ['Z']) := by
  have point (width n : Nat) : ("." ++ paddedText width n).toList ++ ['Z'] =
      '.' :: (padded width (numeral n) ++ ['Z']) := by
    simp [paddedText]
  unfold fractionText
  by_cases zero : nanosecond = 0
  · rw [if_pos zero, zero]
    rfl
  rw [if_neg zero]
  by_cases millis : nanosecond % 1000000 = 0
  · rw [if_pos millis, point, readFraction_padded (by decide) (by decide) (by omega)]
    congr 2
    omega
  rw [if_neg millis]
  by_cases micros : nanosecond % 1000 = 0
  · rw [if_pos micros, point, readFraction_padded (by decide) (by decide) (by omega)]
    congr 2
    omega
  · rw [if_neg micros, point, readFraction_padded (by decide) (by decide) below, Nat.sub_self,
      Nat.pow_zero, Nat.mul_one]

/-- A point in time is the one of its own date and time in universal time. -/
theorem ofLocal_zero (t : Timestamp) : ofLocal t.date t.time 0 = some t := by
  obtain ⟨date, time, dateExists, timeExists⟩ := t
  obtain ⟨hour, minute, second, nanosecond⟩ := time
  have hours : hour < 24 := timeExists.1
  have minutes : minute < 60 := timeExists.2.1
  have early : ¬ (((hour * 60 + minute : Nat) : Int) - 0 < 0) := by omega
  have within : ((hour * 60 + minute : Nat) : Int) - 0 < 1440 := by omega
  have rest : (((hour * 60 + minute : Nat) : Int) - 0) % 1440 = (hour * 60 + minute : Nat) := by
    omega
  have first : (hour * 60 + minute) / 60 = hour := by omega
  have second : (hour * 60 + minute) % 60 = minute := by omega
  unfold ofLocal
  simp only [early, within, rest, if_false, if_true, Int.toNat_natCast, first, second]
  rw [if_pos ⟨dateExists, timeExists, by decide, by decide⟩, dif_pos ⟨dateExists, timeExists⟩]

/-- What follows the seconds is no digit. -/
theorem stop_fractionText (nanosecond : Nat) :
    ∀ c ∈ ((fractionText nanosecond).toList ++ ['Z']).head?, c.isDigit = false := by
  unfold fractionText
  split
  · simp
  split
  · simp
  split <;> simp

/-- No month has more than 31 days. -/
theorem monthLength_le (year : Int) (month : Nat) : monthLength year month ≤ 31 := by
  unfold monthLength
  split <;> split <;> decide

/-- The text of a timestamp denotes it. -/
theorem ofText?_fullText (t : Timestamp) : ofText? t.fullText = some t := by
  obtain ⟨_, _, _, months, _, days⟩ := t.date_exists
  have days := days.trans (monthLength_le _ _)
  obtain ⟨hours, minutes, seconds, nanoseconds⟩ := t.time_exists
  have two (n : Nat) : (paddedText 2 n).toList = padded 2 (numeral n) := String.toList_ofList
  have text : t.fullText.toList = (yearText t.date.year).toList ++ '-' ::
      (padded 2 (numeral t.date.month) ++ '-' :: (padded 2 (numeral t.date.day) ++ 'T' ::
        (padded 2 (numeral t.time.hour) ++ ':' :: (padded 2 (numeral t.time.minute) ++ ':' ::
          (padded 2 (numeral t.time.second) ++
            ((fractionText t.time.nanosecond).toList ++ ['Z'])))))) := by
    simp [fullText, textWith, two]
  have before {n : Nat} (fits : n < 100) {c : Char} (other : c.isDigit = false)
      (rest : List Char) : readNumber (some 2) (padded 2 (numeral n) ++ c :: rest) =
        some (n, c :: rest) := readNumber_two fits (by simpa using other)
  have dash (rest : List Char) : readSeparator '-' ('-' :: rest) = some rest :=
    readSeparator_self (by decide) rest
  have colon (rest : List Char) : readSeparator ':' (':' :: rest) = some rest :=
    readSeparator_self (by decide) rest
  have second := readNumber_two (show t.time.second < 100 by omega)
    (stop_fractionText t.time.nanosecond)
  rw [ofText?, text]
  refine Option.bind_eq_some_iff.2 ⟨_, readYear_yearText _ _, ?_⟩
  refine Option.bind_eq_some_iff.2 ⟨_, dash _, ?_⟩
  refine Option.bind_eq_some_iff.2 ⟨_, before (show t.date.month < 100 by omega) rfl _, ?_⟩
  refine Option.bind_eq_some_iff.2 ⟨_, dash _, ?_⟩
  refine Option.bind_eq_some_iff.2 ⟨_, before (show t.date.day < 100 by omega) rfl _, ?_⟩
  refine Option.bind_eq_some_iff.2 ⟨_, before (show t.time.hour < 100 by omega) rfl _, ?_⟩
  refine Option.bind_eq_some_iff.2 ⟨_, colon _, ?_⟩
  refine Option.bind_eq_some_iff.2 ⟨_, before (show t.time.minute < 100 by omega) rfl _, ?_⟩
  refine Option.bind_eq_some_iff.2 ⟨_, colon _, ?_⟩
  refine Option.bind_eq_some_iff.2 ⟨_, second, ?_⟩
  refine Option.bind_eq_some_iff.2 ⟨_, readFraction_fractionText nanoseconds, ?_⟩
  refine Option.bind_eq_some_iff.2 ⟨(0, []), rfl, ?_⟩
  exact (if_pos rfl).trans (ofLocal_zero t)

end RunReport.Timestamp
