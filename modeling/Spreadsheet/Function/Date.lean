import Spreadsheet.Function.Arguments

/-!
# Date and time functions

Dates are serials, or texts that are read as dates. A serial that is negative or no finite number is
`#NUM!`, also as a result.

* `DateFunction.serialArg` : a date argument;
* `DateFunction.wholeMonths`, `DateFunction.Unit` : how far two dates are apart;
* `dateFunctions` : the functions of this category.
-/

namespace Spreadsheet

namespace DateFunction

open Calendar (Date Clock)
open Binary64 (truncate toInt64Range)

/-- A value that may be missing, as an outcome. -/
def orElse {α : Type} (e : ErrorValue) : Option α → Outcome α
  | some a => .ok a
  | none => .error e

theorem orElse_eq_ok_iff {α : Type} {e : ErrorValue} {o : Option α} {a : α} : orElse e o = .ok a ↔ o = some a := by
  cases o with
  | none => exact ⟨nofun, nofun⟩
  | some b => exact ⟨fun h => congrArg some (Except.ok.inj h), fun h => congrArg Except.ok (Option.some.inj h)⟩

def numberResult (x : Float) : Value := .number x

def intResult (n : Int) : Value := .number (Float.ofInt n)

/-! ## Arguments -/

/-- The serial of a date argument; a text is a numeral or a date. -/
def serialOf (s : Surroundings) : Value → Outcome Float
  | .text t =>
    match Decimal.trimmedFloat? t with
    | some x => .ok x
    | none => orElse .value ((Calendar.parseDate? t s.options.dateOrder).map (·.serial))
  | v => numberOf v

/-- A serial, unless it is negative or not finite. -/
def validSerial (x : Float) : Outcome Float := if x < 0.0 || !x.isFinite then .error .num else .ok x

def serialArg (s : Surroundings) (arguments : List Value) (i : Nat) : Outcome Float := do
  match arguments[i]? with
  | some v => validSerial (← serialOf s v)
  | none => throw .value

def dateArg (s : Surroundings) (arguments : List Value) (i : Nat) : Outcome Date := do
  orElse .num (Calendar.serialDate? (← serialArg s arguments i))

/-- A number of months, at most a million either way. -/
def monthsArg (arguments : List Value) (i : Nat) : Outcome Int := do
  let months := truncate (← numberArg arguments i)
  if months.abs > 1e6 then throw .num
  return toInt64Range months

/-! ## Making dates and times -/

/-- Years before 1900 count from 1900. -/
def fullYear (year : Float) : Float := if year < 1900.0 then year + 1900.0 else year

def date (arguments : List Value) : Outcome Value := do
  let year := truncate (← numberArg arguments 0)
  let month := truncate (← numberArg arguments 1)
  let day := truncate (← numberArg arguments 2)
  if !(0.0 <= year && year < 10000.0) then throw .num
  if month.abs > 1e6 || day.abs > 1e8 then throw .num
  let serial ← orElse .num
    (Calendar.serialOfParts? (toInt64Range (fullYear year)) (toInt64Range month) (toInt64Range day))
  return numberResult (← validSerial serial)

/-- The seconds that are left without whole days. A negative zero is left as it is. -/
def secondsOfDay (total : Float) : Float :=
  if total == 0.0 then total else Float.ofInt (Binary64.wholePart total % (Calendar.secondsPerDay : Int))

/-- A part of a day; whole days are left out. -/
def time (arguments : List Value) : Outcome Value := do
  let hour := truncate (← numberArg arguments 0)
  let minute := truncate (← numberArg arguments 1)
  let second := truncate (← numberArg arguments 2)
  let total ← validSerial (hour * 3600.0 + minute * 60.0 + second)
  return numberResult (secondsOfDay total / 86400.0)

def today (s : Surroundings) (_ : List Value) : Outcome Value :=
  .ok (numberResult s.today.serialNumber)

def now (s : Surroundings) (_ : List Value) : Outcome Value :=
  .ok (numberResult (Calendar.serialOfTime s.today s.clock))

/-! ## Parts of dates and times -/

/-- Year, month or day of a serial. -/
def civilPart (part : Calendar.Civil → Int) (s : Surroundings) (arguments : List Value) :
    Outcome Value := do
  return intResult (part (← orElse .num (Calendar.serialCivil? (← serialArg s arguments 0))))

/-- Hour, minute or second of a serial. -/
def clockPart (part : Clock → Nat) (s : Surroundings) (arguments : List Value) : Outcome Value := do
  let (_, clock) ← orElse .num (Calendar.serialTime? (← serialArg s arguments 0))
  return intResult (part clock)

/-- The day of the week, of which serial 1 is a Sunday: from Sunday or Monday as 1, or from Monday as
zero. -/
def weekday (s : Surroundings) (arguments : List Value) : Outcome Value := do
  let serial := toInt64Range (← serialArg s arguments 0)
  let fromSunday := (serial - 1) % 7
  let fromMonday := (fromSunday + 6) % 7
  match toInt64Range (← optionalNumber arguments 1 1.0) with
  | 1 => return intResult (fromSunday + 1)
  | 2 => return intResult (fromMonday + 1)
  | 3 => return intResult fromMonday
  | _ => throw .num

/-! ## Distances -/

/-- Whole months from one date to another one. -/
def wholeMonths (start finish : Date) : Int :=
  let months := (finish.year - start.year) * 12 + finish.month - start.month
  if finish.day < start.day then months - 1 else months

/-- What a distance is counted in. -/
inductive Unit where
  | years
  | months
  | days
  /-- Months beyond the whole years. -/
  | monthsOfYear
  /-- Days beyond the whole months. -/
  | daysOfMonth
  /-- Days beyond the whole years. -/
  | daysOfYear
deriving DecidableEq

def unitOf? (code : String) : Option Unit :=
  match Text.asciiUpper code with
  | "Y" => some .years
  | "M" => some .months
  | "D" => some .days
  | "YM" => some .monthsOfYear
  | "MD" => some .daysOfMonth
  | "YD" => some .daysOfYear
  | _ => none

/-- Days to `finish` from `start` moved on by months. -/
def daysAfterMonths (start finish : Date) (months : Int) : Outcome Int := do
  let moved ← orElse .num (start.addMonths? months)
  return finish.dayNumber - moved.dayNumber

/-- How far two dates are apart, `days` being the difference of their serials. -/
def distance (start finish : Date) (days : Int) (unit : Unit) : Outcome Int :=
  let months := wholeMonths start finish
  match unit with
  | .years => .ok (months.tdiv 12)
  | .months => .ok months
  | .days => .ok days
  | .monthsOfYear => .ok (months.tmod 12)
  | .daysOfMonth => daysAfterMonths start finish months
  | .daysOfYear => daysAfterMonths start finish (months.tdiv 12 * 12)

def dateDifference (s : Surroundings) (arguments : List Value) : Outcome Value := do
  let startSerial := truncate (← serialArg s arguments 0)
  let finishSerial := truncate (← serialArg s arguments 1)
  let code ← textArg arguments 2
  if finishSerial < startSerial then throw .num
  let start ← orElse .num (Calendar.serialDate? startSerial)
  let finish ← orElse .num (Calendar.serialDate? finishSerial)
  let unit ← orElse .num (unitOf? code)
  return intResult (← distance start finish (toInt64Range (finishSerial - startSerial)) unit)

def days (s : Surroundings) (arguments : List Value) : Outcome Value := do
  let finish := truncate (← serialArg s arguments 0)
  return numberResult (finish - truncate (← serialArg s arguments 1))

/-! ## Moving by months -/

/-- The same day so many months later, or the last day of that month. -/
def sameDay (s : Surroundings) (arguments : List Value) : Outcome Value := do
  let start ← dateArg s arguments 0
  let moved ← orElse .num (start.addMonths? (← monthsArg arguments 1))
  return numberResult (← validSerial moved.serialNumber)

/-- The last day of the month so many months later, which is day zero of the month after it. -/
def lastDay (s : Surroundings) (arguments : List Value) : Outcome Value := do
  let start ← dateArg s arguments 0
  let months ← monthsArg arguments 1
  let serial ← orElse .num (Calendar.serialOfParts? start.year (start.month + months + 1) 0)
  return numberResult (← validSerial serial)

/-- The date that a text writes, without its time. -/
def dateOfText (s : Surroundings) (arguments : List Value) : Outcome Value :=
  match argAt arguments 0 with
  | .text t => do
    let d ← orElse .value (Calendar.parseDate? t s.options.dateOrder)
    return numberResult (Binary64.floor d.serial)
  | .error e => .error e
  | _ => .error .value

/-! ## Functions -/

def function (name : String) (least most : Nat)
    (f : Surroundings → List Value → Outcome Value) : Function :=
  { name, category := .date, least, most := some most, implementation := pureFunction f }

end DateFunction

open DateFunction in
def dateFunctions : List Function :=
  [ function "DATE" 3 3 fun _ => date,
    function "TIME" 3 3 fun _ => time,
    function "DATEDIF" 3 3 dateDifference,
    function "TODAY" 0 0 today,
    function "NOW" 0 0 now,
    function "YEAR" 1 1 (civilPart (·.year)),
    function "MONTH" 1 1 (civilPart fun c => c.month),
    function "DAY" 1 1 (civilPart fun c => c.day),
    function "HOUR" 1 1 (clockPart (·.hour)),
    function "MINUTE" 1 1 (clockPart (·.minute)),
    function "SECOND" 1 1 (clockPart (·.second)),
    function "WEEKDAY" 1 2 weekday,
    function "EDATE" 2 2 sameDay,
    function "EOMONTH" 2 2 lastDay,
    function "DAYS" 2 2 days,
    function "DATEVALUE" 1 1 dateOfText ]

end Spreadsheet
