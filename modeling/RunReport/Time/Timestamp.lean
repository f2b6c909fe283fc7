/-!
# Points in time on the civil calendar

A timestamp is a date and a time of day in coordinated universal time, down
to the nanosecond. Second 60 is the leap second. The year has the range of the
proleptic Gregorian calendar that reports accept, and the type holds only
dates that exist.
-/

namespace RunReport

namespace Timestamp

/-- Whether a year of the Gregorian calendar has a 29 February. -/
def isLeapYear (year : Int) : Bool := year % 4 = 0 && (year % 100 != 0 || year % 400 = 0)

/-- Days of a month. -/
def monthLength (year : Int) (month : Nat) : Nat :=
  if month = 2 then (if isLeapYear year then 29 else 28)
  else if month = 4 || month = 6 || month = 9 || month = 11 then 30
  else 31

/-- The first year that a timestamp may have. -/
def firstYear : Int := -262143

/-- The last year that a timestamp may have. -/
def lastYear : Int := 262142

end Timestamp

/-- A calendar day. -/
structure CalendarDay where
  /-- Year of the Gregorian calendar; year 0 comes before year 1. -/
  year : Int
  /-- Month, from 1 on. -/
  month : Nat
  /-- Day of the month, from 1 on. -/
  day : Nat
  deriving DecidableEq

namespace CalendarDay

/-- Whether the day exists and its year is in range. -/
def Exists (d : CalendarDay) : Prop :=
  Timestamp.firstYear ≤ d.year ∧ d.year ≤ Timestamp.lastYear ∧
    1 ≤ d.month ∧ d.month ≤ 12 ∧ 1 ≤ d.day ∧ d.day ≤ Timestamp.monthLength d.year d.month

instance : DecidablePred Exists := fun _ => inferInstanceAs (Decidable (_ ∧ _))

/-- The day after. -/
def next (d : CalendarDay) : CalendarDay :=
  if d.day < Timestamp.monthLength d.year d.month then { d with day := d.day + 1 }
  else if d.month < 12 then ⟨d.year, d.month + 1, 1⟩
  else ⟨d.year + 1, 1, 1⟩

/-- The day before. -/
def previous (d : CalendarDay) : CalendarDay :=
  if 1 < d.day then { d with day := d.day - 1 }
  else if 1 < d.month then ⟨d.year, d.month - 1, Timestamp.monthLength d.year (d.month - 1)⟩
  else ⟨d.year - 1, 12, 31⟩

end CalendarDay

/-- A time of day. -/
structure TimeOfDay where
  /-- Hour, from 0 to 23. -/
  hour : Nat
  /-- Minute, from 0 to 59. -/
  minute : Nat
  /-- Second, from 0 to 59, or 60 in a leap second. -/
  second : Nat
  /-- Nanosecond within the second. -/
  nanosecond : Nat
  deriving DecidableEq

namespace TimeOfDay

/-- Whether every member is in its range. -/
def Exists (t : TimeOfDay) : Prop :=
  t.hour < 24 ∧ t.minute < 60 ∧ t.second ≤ 60 ∧ t.nanosecond < 10 ^ 9

instance : DecidablePred Exists := fun _ => inferInstanceAs (Decidable (_ ∧ _))

end TimeOfDay

/-- A point in time: an existing day and time of day in universal time. -/
structure Timestamp where
  /-- The day. -/
  date : CalendarDay
  /-- The time of day. -/
  time : TimeOfDay
  /-- The day exists. -/
  date_exists : date.Exists
  /-- The time exists. -/
  time_exists : time.Exists
  deriving DecidableEq

namespace Timestamp

/-- The point in time whose local day and time are given, `offset` minutes
ahead of universal time by less than one day. -/
def ofLocal (date : CalendarDay) (time : TimeOfDay) (offset : Int) : Option Timestamp :=
  let minutes := (time.hour * 60 + time.minute : Nat) - offset
  let date' := if minutes < 0 then date.previous else if minutes < 1440 then date else date.next
  let rest := (minutes % 1440).toNat
  let time' := { time with hour := rest / 60, minute := rest % 60 }
  if date.Exists ∧ time.Exists ∧ -1440 < offset ∧ offset < 1440 then
    if h : date'.Exists ∧ time'.Exists then some ⟨date', time', h.1, h.2⟩ else none
  else none

end Timestamp

end RunReport
