import RunReport.Number.Arithmetic

/-!
# Decimal numerals

Natural numbers are written in base ten, most significant digit first, and read
back; both directions are plain recursion on the number or on the digits. A binary64
number is written in fixed point with a given count of decimal places: the exact
value rounded once to the nearest multiple of the last place, a half to the even
neighbour. Its sign is always kept, so a small negative number may read `-0`.

A decimal numeral that is read is a sign, one natural number made of all its digits,
and the power of ten that scales it. It denotes an exact rational number, which is
rounded to binary64 once.
-/

namespace RunReport.Digits

/-- The character of a digit below ten. -/
def digitChar (d : Nat) : Char := Char.ofNat (48 + d)

/-- The value of a digit character. -/
def digitValue (c : Char) : Nat := c.toNat - 48

/-- The numeral of a natural number, without superfluous zeros. -/
def numeral (n : Nat) : List Char :=
  if n < 10 then [digitChar n] else numeral (n / 10) ++ [digitChar (n % 10)]
termination_by n

/-- The number that a list of digit characters denotes. -/
def value (cs : List Char) : Nat := cs.foldl (fun n c => n * 10 + digitValue c) 0

/-- The digits with zeros in front up to the given count. -/
def padded (width : Nat) (cs : List Char) : List Char :=
  List.replicate (width - cs.length) '0' ++ cs

/-- The numeral of a natural number as text. -/
def text (n : Nat) : String := String.ofList (numeral n)

/-- The numeral of an integer as text, a minus sign before a negative one. -/
def intText (i : Int) : String := if i < 0 then "-" ++ text i.natAbs else text i.natAbs

/-- The numeral with zeros in front up to the given count of digits. -/
def paddedText (width n : Nat) : String := String.ofList (padded width (numeral n))

end RunReport.Digits

namespace RunReport.Binary64

/-- The count of last-place steps nearest to a count of quanta. -/
def fixedSteps (quanta places : Nat) : Nat := roundHalfEven (quanta * 10 ^ places) unit

/-- Digits of a count of last-place steps, the point before the last `places` ones. -/
def fixedDigits (steps places : Nat) : List Char :=
  Digits.numeral (steps / 10 ^ places) ++
    if places = 0 then []
    else '.' :: Digits.padded places (Digits.numeral (steps % 10 ^ places))

/-- A minus sign where one is due, then the rest of a numeral. -/
def withSign (negative : Bool) (rest : List Char) : List Char :=
  if negative then '-' :: rest else rest

/-- The number with exactly `places` digits after the point. -/
def fixed (x : Binary64) (places : Nat) : String :=
  String.ofList <| match x with
    | .finite negative n _ => withSign negative (fixedDigits (fixedSteps n places) places)
    | .infinite negative => withSign negative "inf".toList
    | .nan => "NaN".toList

end RunReport.Binary64

namespace RunReport

/-- The number `± digits · 10 ^ exponent`. -/
structure Decimal where
  /-- Whether a minus sign stands in front. -/
  negative : Bool
  /-- All digits, before and after the point, read as one number. -/
  digits : Nat
  /-- Power of ten by which the digits are scaled. -/
  exponent : Int
  deriving DecidableEq

namespace Decimal

/-- The binary64 number nearest to a decimal one. Powers of ten far beyond
the finite numbers are not computed: their outcome is the same for all. -/
def toBinary64 (d : Decimal) : Binary64 :=
  if d.digits = 0 then Binary64.zero d.negative
  else if 400 < d.exponent then .infinite d.negative
  else if d.exponent + d.digits.log2 < -400 then Binary64.zero d.negative
  else if 0 ≤ d.exponent then
    Binary64.ofQuotient d.negative (d.digits * 10 ^ d.exponent.toNat * Binary64.unit) 1
  else
    Binary64.ofQuotient d.negative (d.digits * Binary64.unit) (10 ^ (-d.exponent).toNat)

/-- The numeral with these digits before and after the point. -/
def ofParts (negative : Bool) (whole fraction : List Char) (exponent : Int) : Decimal :=
  ⟨negative, Digits.value (whole ++ fraction), exponent - fraction.length⟩

/-- A sign that may be absent: whether it is a minus, and what follows it. -/
def readSign : List Char → Bool × List Char
  | '-' :: rest => (true, rest)
  | '+' :: rest => (false, rest)
  | rest => (false, rest)

/-- The exponent part of a numeral, up to the end of the text. -/
def readExponent : List Char → Option Int
  | [] => some 0
  | mark :: rest =>
    let (negative, digits) := readSign rest
    if mark.toLower = 'e' && !digits.isEmpty && digits.all Char.isDigit then
      some (if negative then -(Digits.value digits : Int) else Digits.value digits)
    else none

/-- Reads a numeral that fills the text: a sign, digits with at most one point
among them, and an exponent; sign, point and exponent may be absent. -/
def read (cs : List Char) : Option Decimal :=
  let (negative, body) := readSign cs
  let whole := body.takeWhile Char.isDigit
  let tail := body.dropWhile Char.isDigit
  let (fraction, ending) := match tail with
    | '.' :: rest => (rest.takeWhile Char.isDigit, rest.dropWhile Char.isDigit)
    | rest => ([], rest)
  if whole.isEmpty && fraction.isEmpty then none
  else (readExponent ending).map (ofParts negative whole fraction)

end Decimal

end RunReport
