import Spreadsheet.Binary64.Integral
import Spreadsheet.Calendar.Gregorian

/-!
# Serial dates of the 1900 system

A sheet stores a moment as a number: the days count from 1900-01-01, which is day 1, and the time of
day is the fraction. The system counts a 29 February 1900 that never was, as day 60; from 1900-03-01
on every serial is one more than the days since then.

* `Date.serial` : the serial of a date, never 60;
* `dateOfWhole?` : the date of a whole serial, 60 being read as 28 February;
* `serialDate?`, `serialTime?`, `serialCivil?` : date, time of day and year, month and day of a
  serial, rounded to the second; only the last one shows 29 February 1900;
* `rollDate?`, `serialOfParts?` : year, month and day of any size, rolled into the calendar.
-/

namespace Spreadsheet.Calendar

/-- The number of 1899-12-30, from which the serials of 1900-03-01 and later count. -/
def serialEpoch : Int := 693594

def secondsPerDay : Nat := 86400

/-- Before 1900-03-01 there is no day too many to skip. -/
def Date.serial (d : Date) : Int :=
  let days := d.dayNumber - serialEpoch
  if days ≤ 60 then days - 1 else days

def Date.serialNumber (d : Date) : Float := Float.ofInt d.serial

/-- The date of a whole serial. -/
def dateOfWhole? (whole : Int) : Option Date :=
  Date.ofDayNumber? (serialEpoch + if 60 ≤ whole then whole else whole + 1)

/-- A time of day. -/
structure Clock where
  hour : Nat
  minute : Nat
  second : Nat
deriving DecidableEq, Repr

namespace Clock

def ofSeconds (s : Nat) : Clock := ⟨s / 3600, s / 60 % 60, s % 60⟩

def seconds (c : Clock) : Nat := c.hour * 3600 + c.minute * 60 + c.second

end Clock

/-- The part of a day that hours, minutes and seconds make up. -/
def dayFraction (hour minute second : Float) : Float :=
  hour / 24.0 + minute / 1440.0 + second / 86400.0

/-- Whole days and seconds past midnight, rounded to the second. Serials of more than `10 ^ 15`
seconds, infinities and NaN have none. -/
def splitSerial (serial : Float) : Option (Int × Nat) :=
  match Binary64.exact (Binary64.nearest (serial * 86400.0)) with
  | .finite total =>
    let seconds := total.truncate
    if 10 ^ 15 < seconds.natAbs then none
    else some (seconds / secondsPerDay, (seconds % secondsPerDay).toNat)
  | _ => none

def serialDate? (serial : Float) : Option Date :=
  (splitSerial serial).bind fun (whole, _) => dateOfWhole? whole

/-- Date and time of day. -/
def serialTime? (serial : Float) : Option (Date × Clock) :=
  (splitSerial serial).bind fun (whole, seconds) =>
    (dateOfWhole? whole).map fun d => (d, Clock.ofSeconds seconds)

/-- Serial of a date and a time of day. -/
def serialOfTime (d : Date) (c : Clock) : Float :=
  d.serialNumber + Float.ofNat c.seconds / 86400.0

/-- Year, month and day as sheets show them. -/
def serialCivil? (serial : Float) : Option Civil :=
  (splitSerial serial).bind fun (whole, _) =>
    if whole = 60 then some ⟨1900, 2, 29⟩ else (dateOfWhole? whole).map Date.civil

/-! ## Parts of any size -/

def fits64 (n : Int) : Bool := -2 ^ 63 ≤ n && n < 2 ^ 63

/-- The first day of a month that may lie outside its year. -/
def firstOfMonth? (year month : Int) : Option Date :=
  let months := 12 * year + (month - 1)
  if fits64 (12 * year) && fits64 months then
    Date.ofCivil? ⟨months / 12, (months % 12).toNat + 1, 1⟩
  else none

/-- More days than this cannot be added to a date. -/
def maxDayShift : Nat := 106751991167

def rollDate? (year month day : Int) : Option Date :=
  (firstOfMonth? year month).bind fun first =>
    if (day - 1).natAbs ≤ maxDayShift then first.addDays? (day - 1) else none

/-- Serial of a year, month and day of any size. -/
def serialOfParts? (year month day : Int) : Option Float :=
  (firstOfMonth? year month).map fun first => first.serialNumber + Float.ofInt (day - 1)

end Spreadsheet.Calendar
