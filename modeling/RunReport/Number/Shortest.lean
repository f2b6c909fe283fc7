import RunReport.Number.Numeral

/-!
# Shortest decimal text

The shortest numeral that still reads back as the same binary64 number. The
reals that round to a number form an interval; on the decimal grids of one,
two, three and more significant digits the two neighbours of the number are
tried against it in exact arithmetic, and the first grid with a hit wins. Of
two hits the nearer is taken. What a place of the report makes of the digits,
points and exponents included, is one `NumeralStyle` record.
-/

namespace RunReport

/-- How a shortest numeral is laid out. -/
structure NumeralStyle where
  /-- Places of the point, counted from the first digit, for which the number
  is written without an exponent; always when absent. -/
  plain : Option (Int × Int)
  /-- Whether a whole number shows `.0`. -/
  keepsPoint : Bool
  /-- Whether a positive exponent shows its sign. -/
  plusSign : Bool
  /-- Whether the upper of two equally near numerals is taken; else the even one. -/
  tieUp : Bool

namespace Binary64

/-- Digits in the numeral of a natural number. -/
def digitCount (n : Nat) : Nat := if n < 10 then 1 else digitCount (n / 10) + 1
termination_by n

/-- The place of the point before which a positive count of quanta has its
first digit: the number lies below ten to this power and not below a tenth of it. -/
def leadingPlace (n : Nat) : Int :=
  if unit ≤ n then digitCount (n / unit) else 1 - digitCount ((unit - 1) / n)

/-- The interval of reals that round to a number, in quarters of a quantum. -/
structure RoundingInterval where
  /-- Lower end. -/
  low : Nat
  /-- Upper end. -/
  high : Nat
  /-- Whether the ends belong to the interval. -/
  closed : Bool

/-- The interval of a positive count of quanta: half a grid step to each side,
a quarter below the first number of a grid. The ends round to the number when
its significand is even. -/
def roundingInterval (n : Nat) : RoundingInterval :=
  let e := gridExponent n
  let significand := n / 2 ^ e
  let below := if significand = 2 ^ 52 ∧ 0 < e then 2 ^ e else 2 * 2 ^ e
  ⟨4 * n - below, 4 * n + 2 * 2 ^ e, significand % 2 = 0⟩

/-- Whether the interval holds `count` steps of ten to the power `exponent`. -/
def RoundingInterval.holds (interval : RoundingInterval) (count : Nat) (exponent : Int) : Bool :=
  let point := count * 4 * unit * 10 ^ exponent.toNat
  let scale := 10 ^ (-exponent).toNat
  if interval.closed then
    decide (interval.low * scale ≤ point) && decide (point ≤ interval.high * scale)
  else
    decide (interval.low * scale < point) && decide (point < interval.high * scale)

/-- Whole steps of ten to the power `exponent` in a count of quanta, and
whether what remains is less than, equal to or more than half a step. -/
def decimalFloor (n : Nat) (exponent : Int) : Nat × Ordering :=
  let num := n * 10 ^ (-exponent).toNat
  let den := unit * 10 ^ exponent.toNat
  (num / den, compare (2 * (num % den)) den)

/-- The nearer neighbour on one decimal grid that rounds to the number, if any. -/
def gridNumeral (tieUp : Bool) (n : Nat) (exponent : Int) : Option Nat :=
  let (low, half) := decimalFloor n exponent
  let interval := roundingInterval n
  match interval.holds low exponent, interval.holds (low + 1) exponent with
  | true, true => match half with
    | .lt => some low
    | .gt => some (low + 1)
    | .eq => some (if tieUp || low % 2 = 1 then low + 1 else low)
  | true, false => some low
  | false, true => some (low + 1)
  | false, false => none

/-- Most significant digits that a binary64 number ever needs. -/
def maximalDigits : Nat := 17

/-- Significant digits and scale of the shortest numeral of a positive count
of quanta; trailing zeros may remain. -/
def shortestDecimal (tieUp : Bool) (n : Nat) : Nat × Int :=
  let place := leadingPlace n
  let grids := (List.range maximalDigits).map fun k => place - (k + 1 : Nat)
  (grids.findSome? fun exponent => (gridNumeral tieUp n exponent).map (·, exponent)).getD
    ((decimalFloor n (place - maximalDigits)).1, place - maximalDigits)

end Binary64

namespace NumeralStyle

/-- The numeral with significant digits `digits`, the point `place` digits
after the start, and no exponent. -/
def positional (style : NumeralStyle) (digits : List Char) (place : Int) : List Char :=
  if place ≤ 0 then '0' :: '.' :: List.replicate (-place).toNat '0' ++ digits
  else if place < digits.length then
    digits.take place.toNat ++ '.' :: digits.drop place.toNat
  else
    digits ++ List.replicate (place.toNat - digits.length) '0' ++
      if style.keepsPoint then ['.', '0'] else []

/-- The numeral with one digit before the point and an exponent. -/
def scientific (style : NumeralStyle) (digits : List Char) (place : Int) : List Char :=
  let power := place - 1
  let sign := if power < 0 then ['-'] else if style.plusSign then ['+'] else []
  let fraction := if digits.length ≤ 1 then [] else '.' :: digits.drop 1
  digits.take 1 ++ fraction ++ 'e' :: sign ++ Digits.numeral power.natAbs

/-- Digits without the zeros at their end. -/
def stripZeros (digits : List Char) : List Char :=
  (digits.reverse.dropWhile (· == '0')).reverse

/-- The shortest numeral of a count of quanta, without its sign. -/
def magnitude (style : NumeralStyle) (n : Nat) : List Char :=
  if n = 0 then '0' :: if style.keepsPoint then ['.', '0'] else []
  else
    let (count, exponent) := Binary64.shortestDecimal style.tieUp n
    let written := Digits.numeral count
    let place := written.length + exponent
    let digits := stripZeros written
    let isPlain := match style.plain with
      | none => true
      | some (least, greatest) => decide (least ≤ place) && decide (place ≤ greatest)
    if isPlain then style.positional digits place else style.scientific digits place

/-- The number as text in the given style. -/
def write (style : NumeralStyle) : Binary64 → String
  | .finite negative n _ => String.ofList (Binary64.withSign negative (style.magnitude n))
  | .infinite negative => if negative then "-inf" else "inf"
  | .nan => "NaN"

end NumeralStyle

end RunReport
