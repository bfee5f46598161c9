import Spreadsheet.Proofs.SheetCalendar

/-!
# Parts that roll over

Years and months only matter as the month that they count up to, and a day is counted from the first one of that month.
So months of any size roll into years and days of any size into months, and the first days of two months in a row are as
far apart as the first of them is long, with the day too many of February 1900.

* `sheetMonthLength` : the length of a month as sheets count it;
* `serialOfParts?_addYears`, `serialOfParts?_addDays`, `serialOfParts?_nextMonth` : twelve months, days, and one month;
* `serialOfParts?_rolls` : all of it.
-/

namespace Spreadsheet.Calendar

open Binary64 (ofInt_add represents_ofInt_sub represents_ofNat)

variable {year month day k j : ℤ} {x y : Float} {f g : Date}

/-- Sheets count 29 days in February 1900. -/
def sheetMonthLength (year : ℤ) (month : ℕ) : ℕ :=
  if year = 1900 ∧ month = 2 then 29 else daysInMonth (isLeap year) month

theorem serialOfParts?_eq_some_iff : serialOfParts? year month day = some x ↔
    ∃ f, firstOfMonth? year month = some f ∧ f.serialNumber + Float.ofInt (day - 1) = x :=
  Option.map_eq_some_iff

/-- Twelve months more are a year more. -/
theorem serialOfParts?_addYears (hx : serialOfParts? year (month + 12 * k) day = some x)
    (hy : serialOfParts? (year + k) month day = some y) : x = y := by
  obtain ⟨f, hf, rfl⟩ := serialOfParts?_eq_some_iff.1 hx
  obtain ⟨g, hg, rfl⟩ := serialOfParts?_eq_some_iff.1 hy
  have hcount : 12 * year + (month + 12 * k - 1) = 12 * (year + k) + (month - 1) := by ring
  have hnumber : f.dayNumber = g.dayNumber := by
    rw [dayNumber_of_firstOfMonth? hf, dayNumber_of_firstOfMonth? hg, hcount]
  rw [Date.ext_dayNumber hnumber]

/-- Days are counted from the first one of the month, as long as floats hold all whole numbers. -/
theorem serialOfParts?_addDays (hday : |day| < 2 ^ 52) (hsum : |day + j| < 2 ^ 52)
    (hx : serialOfParts? year month day = some x) :
    serialOfParts? year month (day + j) = some (x + Float.ofInt j) := by
  obtain ⟨f, hf, -⟩ := serialOfParts?_eq_some_iff.1 hx
  obtain rfl : Float.ofInt (f.serial + day - 1) = x := by
    rw [serialOfParts?_eq hf hday.le] at hx
    exact Option.some.inj hx
  have hserial := abs_serial_lt f
  rw [abs_lt] at hday hsum hserial
  have hmoved : f.serial + day - 1 + j = f.serial + (day + j) - 1 := by ring
  rw [serialOfParts?_eq hf (abs_lt.2 hsum).le, ofInt_add (by rw [abs_lt]; omega) (by rw [abs_lt]; omega)
    (by rw [abs_lt]; omega), hmoved]

/-! ## Months in a row -/

theorem sheetMonthLength_eq (d : Date) : sheetMonthLength d.year d.month =
    monthLength d.monthCount + if d.monthCount + 1 = march1900 then 1 else 0 := by
  have hfebruary : d.year = 1900 ∧ d.month = 2 ↔ d.monthCount + 1 = march1900 := by
    rw [d.year_eq, d.month_eq, march1900]
    omega
  unfold sheetMonthLength
  split
  · rename_i h
    rw [if_pos (hfebruary.1 h), monthLength, ← d.year_eq, ← d.month_eq, h.1, h.2]
    rfl
  · rename_i h
    rw [if_neg (mt hfebruary.2 h), monthLength, ← d.year_eq, ← d.month_eq, Nat.add_zero]

theorem serial_sub_of_firstOfMonth? (hf : firstOfMonth? year month = some f)
    (hg : firstOfMonth? year (month + 1) = some g) : g.serial - f.serial = sheetMonthLength f.year f.month := by
  have hnext := monthStart_succ (12 * year + (month - 1))
  have hcount := (monthCount_of_firstOfMonth? hf).1
  have hcount' := (monthCount_of_firstOfMonth? hg).1
  have hnumber := dayNumber_of_firstOfMonth? hf
  have hnumber' := dayNumber_of_firstOfMonth? hg
  have hmonth : 12 * year + (month + 1 - 1) = 12 * year + (month - 1) + 1 := by ring
  rw [hmonth] at hcount' hnumber'
  rw [sheetMonthLength_eq, f.serial_eq, g.serial_eq, hcount, hcount']
  push_cast
  split <;> split <;> split <;> omega

theorem serialOfParts?_nextMonth (hx : serialOfParts? year month 1 = some x)
    (hy : serialOfParts? year (month + 1) 1 = some y) : ∃ c, serialCivil? x = some c ∧ c.IsDate ∧
      12 * c.year + c.month = 12 * year + month ∧ c.day = 1 ∧
      y - x = Float.ofNat (sheetMonthLength c.year c.month) := by
  obtain ⟨f, hf, -⟩ := serialOfParts?_eq_some_iff.1 hx
  obtain ⟨g, hg, -⟩ := serialOfParts?_eq_some_iff.1 hy
  obtain rfl : f.serialNumber = x := by
    rw [serialOfParts?_eq hf (by norm_num), Int.add_sub_cancel] at hx
    exact Option.some.inj hx
  obtain rfl : g.serialNumber = y := by
    rw [serialOfParts?_eq hg (by norm_num), Int.add_sub_cancel] at hy
    exact Option.some.inj hy
  have hcount := monthCount_of_firstOfMonth? hf
  have hdifference := serial_sub_of_firstOfMonth? hf hg
  have hserial := abs_serial_lt f
  have hserial' := abs_serial_lt g
  rw [abs_lt] at hserial hserial'
  have hlength : 0 < sheetMonthLength f.year f.month := by
    rw [sheetMonthLength_eq]
    exact Nat.add_pos_left (by have := le_monthLength f.monthCount; omega) _
  have hsub := represents_ofInt_sub (a := g.serial) (b := f.serial) (by rw [abs_lt]; omega) (by rw [abs_lt]; omega)
    (by rw [abs_lt]; omega)
  rw [hdifference] at hsub
  refine ⟨f.civil, serialCivil?_serialNumber f, f.isDate_civil, ?_, hcount.2, ?_⟩
  · have hmonth := hcount.1
    unfold Date.monthCount Date.year Date.month at hmonth
    omega
  · refine hsub.eq_of_ne_zero (represents_ofNat ?_) (by exact_mod_cast hlength.ne')
    show sheetMonthLength f.year f.month < 2 ^ 53
    omega

/-- Parts of any size: twelve months more are a year more, days more are added to the serial, and a month later the
first day is the length of the month later that the serial shows. Days count so far that floats hold all whole numbers,
which is beyond the dates. -/
theorem serialOfParts?_rolls (year month day : ℤ) :
    (∀ k x y, serialOfParts? year (month + 12 * k) day = some x → serialOfParts? (year + k) month day = some y →
      x = y) ∧
    (∀ j x, |day| < 2 ^ 52 → |day + j| < 2 ^ 52 → serialOfParts? year month day = some x →
      serialOfParts? year month (day + j) = some (x + Float.ofInt j)) ∧
    ∀ x y, serialOfParts? year month 1 = some x → serialOfParts? year (month + 1) 1 = some y →
      ∃ c, serialCivil? x = some c ∧ c.IsDate ∧ 12 * c.year + c.month = 12 * year + month ∧ c.day = 1 ∧
        y - x = Float.ofNat (sheetMonthLength c.year c.month) :=
  ⟨fun _ _ _ => serialOfParts?_addYears, fun _ _ => serialOfParts?_addDays, fun _ _ => serialOfParts?_nextMonth⟩

/-- February 1900, by way of the year before, and by days into the months around it. -/
theorem serialOfParts?_rolls_february1900 :
    serialOfParts? 1899 (2 + 12 * 1) 1 = some (Float.ofInt 32) ∧
    serialOfParts? (1899 + 1) 2 1 = some (Float.ofInt 32) ∧
    serialOfParts? 1900 2 (1 + 29) = some (Float.ofInt 32 + Float.ofInt 29) ∧
    serialOfParts? 1900 2 (1 + -33) = some (Float.ofInt 32 + Float.ofInt (-33)) ∧
    ∃ x y, serialOfParts? 1900 2 1 = some x ∧ serialOfParts? 1900 (2 + 1) 1 = some y ∧ ∃ c, serialCivil? x = some c ∧
      12 * c.year + c.month = 12 * 1900 + 2 ∧ y - x = Float.ofNat (sheetMonthLength c.year c.month) := by
  have hrolled : serialOfParts? 1899 (2 + 12 * 1) 1 = some (Float.ofInt 32) := by decide +kernel
  have hstart : serialOfParts? 1900 2 1 = some (Float.ofInt 32) := by decide +kernel
  have hnext : serialOfParts? 1900 (2 + 1) 1 = some (Float.ofInt 61) := by decide +kernel
  obtain ⟨hyears, -, -⟩ := serialOfParts?_rolls 1899 2 1
  obtain ⟨-, hdays, hmonth⟩ := serialOfParts?_rolls 1900 2 1
  obtain ⟨c, hc, -, hcount, -, hlength⟩ := hmonth _ _ hstart hnext
  refine ⟨hrolled, hyears 1 _ _ hrolled hstart ▸ hstart, hdays 29 _ ?_ ?_ hstart, hdays (-33) _ ?_ ?_ hstart, _, _,
    hstart, hnext, c, hc, hcount, hlength⟩
  all_goals norm_num

end Spreadsheet.Calendar
