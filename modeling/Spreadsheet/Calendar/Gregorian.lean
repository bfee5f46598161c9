/-!
# The Gregorian calendar

The calendar is extended to all years, a year `0` among them. Days are numbered so that 0001-01-01 is
day 1.

* `daysBeforeYear`, `daysBeforeMonth`, `daysInMonth` : lengths;
* `Civil` : year, month and day; `Civil.dayNumber` numbers one and `civilOfDay` takes the number
  back;
* `Date` : a day whose year lies between `firstYear` and `lastYear`;
* `Date.addMonths?` : the same day some months later, or the last day of a shorter month.
-/

namespace Spreadsheet.Calendar

def isLeap (y : Int) : Bool := y % 4 == 0 && (y % 100 != 0 || y % 400 == 0)

/-- Days of all years before `y`, from 0001-01-01 on (negative for years before that). -/
def daysBeforeYear (y : Int) : Int :=
  365 * (y - 1) + (y - 1) / 4 - (y - 1) / 100 + (y - 1) / 400

def daysInMonth (leap : Bool) (month : Nat) : Nat :=
  match month with
  | 2 => if leap then 29 else 28
  | 4 | 6 | 9 | 11 => 30
  | _ => 31

/-- Days of the months before `month` in its year. -/
def daysBeforeMonth (leap : Bool) : Nat → Nat
  | 0 | 1 => 0
  | month + 2 => daysBeforeMonth leap (month + 1) + daysInMonth leap (month + 1)

/-- A day by year, month and day of the month. -/
structure Civil where
  year : Int
  month : Nat
  day : Nat
deriving DecidableEq, Repr

namespace Civil

/-- The month and the day exist. -/
def IsDate (c : Civil) : Prop :=
  1 ≤ c.month ∧ c.month ≤ 12 ∧ 1 ≤ c.day ∧ c.day ≤ daysInMonth (isLeap c.year) c.month

instance (c : Civil) : Decidable c.IsDate := by unfold IsDate; infer_instance

def dayNumber (c : Civil) : Int :=
  daysBeforeYear c.year + daysBeforeMonth (isLeap c.year) c.month + c.day

end Civil

/-- The year of a day. A year has `146097 / 400` days on the average, so the estimate is at most one
off. -/
def yearOfDay (n : Int) : Int :=
  let y := 400 * (n - 1) / 146097 + 1
  if n ≤ daysBeforeYear y then y - 1
  else if daysBeforeYear (y + 1) < n then y + 1
  else y

/-- The month, at least `month`, in which day `n` of the months from `month` on falls, and its day
there. -/
def monthOfDay (leap : Bool) (month n : Nat) : Nat → Nat × Nat
  | 0 => (month, n)
  | later + 1 =>
    if n ≤ daysInMonth leap month then (month, n)
    else monthOfDay leap (month + 1) (n - daysInMonth leap month) later

def civilOfDay (n : Int) : Civil :=
  let year := yearOfDay n
  let (month, day) := monthOfDay (isLeap year) 1 (n - daysBeforeYear year).toNat 11
  ⟨year, month, day⟩

/-! ## Dates in range -/

def firstYear : Int := -262143

def lastYear : Int := 262142

/-- A day of the years from `firstYear` to `lastYear`. -/
structure Date where
  dayNumber : Int
  first_le : daysBeforeYear firstYear + 1 ≤ dayNumber
  le_last : dayNumber ≤ daysBeforeYear (lastYear + 1)
deriving DecidableEq

namespace Date

def ofDayNumber? (n : Int) : Option Date :=
  if h : daysBeforeYear firstYear + 1 ≤ n ∧ n ≤ daysBeforeYear (lastYear + 1) then
    some ⟨n, h.1, h.2⟩
  else none

def ofCivil? (c : Civil) : Option Date :=
  if c.IsDate then ofDayNumber? c.dayNumber else none

def civil (d : Date) : Civil := civilOfDay d.dayNumber

def year (d : Date) : Int := d.civil.year

def month (d : Date) : Nat := d.civil.month

def day (d : Date) : Nat := d.civil.day

/-- Days after Sunday. Day 1 was a Monday. -/
def weekday (d : Date) : Nat := (d.dayNumber % 7).toNat

/-- Months counted through from January of the year `0`. -/
def monthCount (d : Date) : Int := 12 * d.year + d.month - 1

def addDays? (d : Date) (days : Int) : Option Date := ofDayNumber? (d.dayNumber + days)

/-- The same day `months` later, or the last day of that month when it is shorter. -/
def addMonths? (d : Date) (months : Int) : Option Date :=
  let count := d.monthCount + months
  let year := count / 12
  let month := (count % 12).toNat + 1
  ofCivil? ⟨year, month, min d.day (daysInMonth (isLeap year) month)⟩

end Date

end Spreadsheet.Calendar
