import RunReport.Number.Numeral
import RunReport.Text.Split
import RunReport.Time.Timestamp

/-!
# Timestamps as text

A timestamp is written as date, `T`, time and `Z`; a year outside four digits
carries its sign. Reading is wider than writing: blanks may stand before every
number and separator, the date may be followed by a blank instead of `T`,
numbers may be short, and the time may be local with an offset in hours and
minutes, which is taken off.
-/

namespace RunReport.Timestamp

/-- The year with at least four digits, signed unless it has exactly four. -/
def yearText (year : Int) : String :=
  if 0 ≤ year ∧ year ≤ 9999 then Digits.paddedText 4 year.toNat
  else (if year < 0 then "-" else "+") ++ Digits.paddedText 4 year.natAbs

/-- Date and time down to the second, with `suffix` before the final `Z`. -/
def textWith (suffix : String) (t : Timestamp) : String :=
  let two := Digits.paddedText 2
  yearText t.date.year ++ "-" ++ two t.date.month ++ "-" ++ two t.date.day ++ "T" ++
    two t.time.hour ++ ":" ++ two t.time.minute ++ ":" ++ two t.time.second ++ suffix ++ "Z"

/-- The timestamp down to the second; the fraction is cut off. -/
def secondsText (t : Timestamp) : String := textWith "" t

/-- The fraction of a second in as many groups of three digits as it needs. -/
def fractionText (nanosecond : Nat) : String :=
  if nanosecond = 0 then ""
  else if nanosecond % 1000000 = 0 then "." ++ Digits.paddedText 3 (nanosecond / 1000000)
  else if nanosecond % 1000 = 0 then "." ++ Digits.paddedText 6 (nanosecond / 1000)
  else "." ++ Digits.paddedText 9 nanosecond

/-- The timestamp with its fraction of a second. -/
def fullText (t : Timestamp) : String := textWith (fractionText t.time.nanosecond) t

/-- A number of at most `width` digits after leading blanks; any number of
digits if no width is given. -/
def readNumber (width : Option Nat) (cs : List Char) : Option (Nat × List Char) :=
  let body := Text.trimStart cs
  let digits := body.takeWhile Char.isDigit
  let digits := match width with
    | some w => digits.take w
    | none => digits
  if digits.isEmpty then none else some (Digits.value digits, body.drop digits.length)

/-- A year: four digits at most, or a sign and any number of digits. -/
def readYear (cs : List Char) : Option (Int × List Char) :=
  match Text.trimStart cs with
  | '-' :: rest => match rest with
    | c :: _ => if c.isDigit then (readNumber none rest).map fun (n, rest) => (-(n : Int), rest)
      else none
    | [] => none
  | '+' :: rest => match rest with
    | c :: _ => if c.isDigit then (readNumber none rest).map fun (n, rest) => ((n : Int), rest)
      else none
    | [] => none
  | rest => (readNumber (some 4) rest).map fun (n, rest) => ((n : Int), rest)

/-- The text after blanks and a given separator. -/
def readSeparator (c : Char) (cs : List Char) : Option (List Char) :=
  match Text.trimStart cs with
  | d :: rest => if d = c then some rest else none
  | [] => none

/-- A fraction of a second, if there is one, in nanoseconds; digits beyond the
ninth are passed over. -/
def readFraction : List Char → Option (Nat × List Char)
  | '.' :: rest =>
    let digits := rest.takeWhile Char.isDigit
    if digits.isEmpty then none
    else
      let kept := digits.take 9
      some (Digits.value kept * 10 ^ (9 - kept.length), rest.drop digits.length)
  | rest => some (0, rest)

/-- Two digits that stand right here. -/
def readTwoDigits : List Char → Option (Nat × List Char)
  | a :: b :: rest =>
    if a.isDigit && b.isDigit then some (Digits.value [a, b], rest) else none
  | _ => none

/-- Hours and minutes ahead of universal time, in minutes. -/
def readHoursMinutes (cs : List Char) : Option (Nat × List Char) := do
  let (hours, rest) ← readTwoDigits cs
  let (minutes, rest) ← readTwoDigits (rest.dropWhile fun c => c = ':' || Text.isBlank c)
  if minutes < 60 then some (hours * 60 + minutes, rest) else none

/-- The distance from universal time in minutes: `Z`, `UTC` in any case, or a
sign, hours and minutes. -/
def readOffset : List Char → Option (Int × List Char)
  | c :: rest =>
    if c = 'Z' || c = 'z' then some (0, rest)
    else if c = '+' then (readHoursMinutes rest).map fun (m, rest) => ((m : Int), rest)
    else if c = '-' || c = '−' then
      (readHoursMinutes rest).map fun (m, rest) => (-(m : Int), rest)
    else match (c :: rest).take 3 with
      | [u, t, z] =>
        if u.toLower = 'u' && t.toLower = 't' && z.toLower = 'c' then some (0, rest.drop 2)
        else none
      | _ => none
  | [] => none

/-- The timestamp that a text denotes. -/
def ofText? (text : String) : Option Timestamp := do
  let (year, rest) ← readYear text.toList
  let rest ← readSeparator '-' rest
  let (month, rest) ← readNumber (some 2) rest
  let rest ← readSeparator '-' rest
  let (day, rest) ← readNumber (some 2) rest
  let rest ← match rest with
    | c :: rest => if c = 'T' || c = 't' || c = ' ' then some rest else none
    | [] => none
  let (hour, rest) ← readNumber (some 2) rest
  let rest ← readSeparator ':' rest
  let (minute, rest) ← readNumber (some 2) rest
  let rest ← readSeparator ':' rest
  let (second, rest) ← readNumber (some 2) rest
  let (nanosecond, rest) ← readFraction rest
  let (offset, rest) ← readOffset (Text.trimStart rest)
  if (Text.trimStart rest).isEmpty then
    ofLocal ⟨year, month, day⟩ ⟨hour, minute, second, nanosecond⟩ offset
  else none

end RunReport.Timestamp
